import Mathlib.Tactic.Linarith
import OpenObs.Notifications.Silences

/-!
# The spacing of dispatches

Any number of events handled at the same time (`services/notification-consumer.ts`), seen
from one dispatch key. A handle that is due sends, notes the time, and records it; as
long as one of them does this at a time, the row of the key is the last send.
-/

namespace OpenObs.Notifications

open OpenObs.Foundation NotificationConsumer

/-! ## What is written down about a key -/

def times (key : DispatchKey) (log : List Delivery) : List ℤ :=
  (log.filter (·.key = key)).map (·.sentAt)

/-- The second time is at least `g` seconds after the first. -/
def Gap (g : ℚ) (t t' : ℤ) : Prop := g * 1000 ≤ ((t' - t : ℤ) : ℚ)

/-- The dispatches that went through are spaced, the key has at most one row, and the row counts
the recorded ones. -/
structure Spacing (key : DispatchKey) (g : ℚ) (w : World) : Prop where
  spaced : (times key w.delivered).IsChain (Gap g)
  one_row : (w.dispatch.rows.filter (·.key = key)).length ≤ 1
  counted : ((w.dispatch.findByKey key).map (·.sentCount)).getD 0 = (times key w.recorded).length

structure Untouched (key : DispatchKey) (w : World) : Prop where
  row : w.dispatch.findByKey key = none
  delivered : times key w.delivered = []
  recorded : times key w.recorded = []

/-- The row of the key is the last recorded dispatch, and what went through is what is recorded
and what is yet to be. -/
structure Books (key : DispatchKey) (g : ℚ) (pending : List ℤ) (w : World) : Prop where
  paid : times key w.delivered = times key w.recorded ++ pending
  unrecorded : w.dispatch.findByKey key = none → times key w.recorded = []
  last : ∀ row, w.dispatch.findByKey key = some row →
    row.sentCount = (times key w.recorded).length ∧
      (times key w.recorded).getLast? = some row.lastSentAt
  spaced : (times key w.delivered).IsChain (Gap g)

def Due (key : DispatchKey) (g : ℚ) (w : World) : Prop :=
  ∀ row, w.dispatch.findByKey key = some row → Gap g row.lastSentAt w.clock

structure Later (w w' : World) : Prop where
  clock : w.clock ≤ w'.clock
  tree : w'.policyTree = w.policyTree
  rows : w.dispatch.Grows w'.dispatch

structure Aside (key : DispatchKey) (w w' : World) : Prop where
  later : Later w w'
  row : w'.dispatch.findByKey key = w.dispatch.findByKey key
  delivered : times key w'.delivered = times key w.delivered
  recorded : times key w'.recorded = times key w.recorded

section Books

variable {key key' : DispatchKey} {g : ℚ} {pending : List ℤ} {w w' w'' : World} {t : ℤ}

theorem times_append (log : List Delivery) (sent : Delivery) :
    times key (log ++ [sent]) = times key log ++ if sent.key = key then [sent.sentAt] else [] := by
  rw [times, List.filter_append, List.map_append, List.filter_singleton]
  by_cases h : sent.key = key <;> simp [h, times]

theorem Later.refl (w : World) : Later w w := ⟨le_rfl, rfl, .refl _⟩

theorem Later.trans (h : Later w w') (h' : Later w' w'') : Later w w'' :=
  ⟨h.clock.trans h'.clock, h'.tree.trans h.tree, h.rows.trans h'.rows⟩

theorem Aside.refl (w : World) : Aside key w w := ⟨.refl w, rfl, rfl, rfl⟩

theorem Due.aside (h : Due key g w) (ha : Aside key w w') : Due key g w' := by
  intro row hrow
  have hgap := h row (ha.row ▸ hrow)
  have hclock : ((w.clock - row.lastSentAt : ℤ) : ℚ) ≤ ((w'.clock - row.lastSentAt : ℤ) : ℚ) := by
    exact_mod_cast Int.sub_le_sub_right ha.later.clock _
  exact hgap.trans hclock

theorem Books.aside (h : Books key g pending w) (ha : Aside key w w') :
    Books key g pending w' where
  paid := by
    rw [ha.delivered, ha.recorded]
    exact h.paid
  unrecorded hnone := by
    rw [ha.recorded]
    exact h.unrecorded (ha.row ▸ hnone)
  last row hrow := by
    rw [ha.recorded]
    exact h.last row (ha.row ▸ hrow)
  spaced := by
    rw [ha.delivered]
    exact h.spaced

theorem Books.note (h : Books key g [] w) (hdue : Due key g w) : Books key g [w.clock]
    { w with delivered := w.delivered ++ [⟨key, w.clock⟩] } := by
  have hpaid : times key w.delivered = times key w.recorded := by simpa using h.paid
  have hnew : times key (w.delivered ++ [⟨key, w.clock⟩]) = times key w.delivered ++ [w.clock] := by
    rw [times_append, if_pos rfl]
  refine ⟨?_, h.unrecorded, h.last, ?_⟩
  · show times key (w.delivered ++ [⟨key, w.clock⟩]) = _
    rw [hnew, hpaid]
  · show (times key (w.delivered ++ [⟨key, w.clock⟩])).IsChain (Gap g)
    rw [hnew, List.isChain_append]
    refine ⟨h.spaced, .singleton _, ?_⟩
    intro last hlast t ht
    rw [hpaid] at hlast
    cases ht
    cases hrow : w.dispatch.findByKey key with
    | none =>
      rw [h.unrecorded hrow] at hlast
      cases hlast
    | some row =>
      rw [(h.last row hrow).2] at hlast
      cases hlast
      exact hdue row hrow

structure Recorded (key : DispatchKey) (t : ℤ) (w w' : World) : Prop where
  later : Later w w'
  row : ∃ row, w'.dispatch.findByKey key = some row ∧ row.lastSentAt = t ∧
    row.sentCount = ((w.dispatch.findByKey key).map (·.sentCount)).getD 0 + 1
  delivered : times key w'.delivered = times key w.delivered
  recorded : times key w'.recorded = times key w.recorded ++ [t]

theorem Books.counted (h : Books key g pending w) :
    ((w.dispatch.findByKey key).map (·.sentCount)).getD 0 = (times key w.recorded).length := by
  cases hrow : w.dispatch.findByKey key with
  | none =>
    rw [h.unrecorded hrow]
    rfl
  | some row => exact (h.last row hrow).1

theorem Books.record (h : Books key g [t] w) (hr : Recorded key t w w') : Books key g [] w' := by
  obtain ⟨row, hrow, hlast, hcount⟩ := hr.row
  constructor
  case paid => rw [hr.delivered, hr.recorded, h.paid, List.append_nil]
  case unrecorded =>
    intro hnone
    rw [hrow] at hnone
    cases hnone
  case last =>
    intro row' hrow'
    obtain rfl : row = row' := Option.some.inj (hrow.symm.trans hrow')
    rw [hr.recorded, hcount, h.counted, hlast]
    simp
  case spaced =>
    rw [hr.delivered]
    exact h.spaced

theorem Untouched.books (h : Untouched key w) : Books key g [] w where
  paid := by rw [h.delivered, h.recorded, List.append_nil]
  unrecorded _ := h.recorded
  last row hrow := by
    rw [h.row] at hrow
    cases hrow
  spaced := by
    rw [h.delivered]
    exact .nil

theorem Books.spacing (h : Books key g pending w) : Spacing key g w where
  spaced := h.spaced
  one_row := w.dispatch.length_rows_le_one key
  counted := h.counted

end Books

/-! ## Where a handle is -/

def lookup (o : NotificationConsumer) (payload : AlertFiredEventPayload) (route : MatchedRoute)
    (now : ℤ) : Prog World Unit := do
  let existing ← Prog.read (·.dispatch.findByKey (routeKey payload route))
  match decideDispatch existing route now with
  | .skipGroupWindow => pure ()
  | .sendNow => o.sendAndRecord (routeKey payload route)

def record (key : DispatchKey) (anySent : Bool) : Prog World Unit :=
  if anySent then do
    let sentAt ← noteSent key
    tryCatch (upsertSent key sentAt) fun _ => pure ()
  else pure ()

/-- A handle has nothing under way for the key, is due to send, or has noted the time of a send
that is not recorded. -/
inductive Phase : Type where
  | quiet
  | due
  | noted (t : ℤ)

def Phase.pending : Phase → List ℤ
  | .noted t => [t]
  | _ => []

section Places

variable (o : NotificationConsumer) (key : DispatchKey) (g rep : ℚ)

def Fits (payload : AlertFiredEventPayload) (route : MatchedRoute) : Prop :=
  routeKey payload route = key → route.groupIntervalSec = g ∧ route.repeatIntervalSec = rep

inductive Flight (w : World) : Phase → Prog World Unit → Prop
  | find (hdue : Due key g w) : Flight w .due (o.sendAndRecord key)
  | send (hdue : Due key g w) (is : List ContactPointIntegration) (anySent : Bool) :
      Flight w .due (o.sendAll key is anySent >>= record key)
  | upsert (t : ℤ) : Flight w (.noted t) (tryCatch (upsertSent key t) fun _ => pure ())
  | update (t : ℤ) {row : DispatchRow} (hrow : w.dispatch.findByKey key = some row) :
      Flight w (.noted t) (tryCatch (updateSent row t) fun _ => pure ())
  | insert (t : ℤ) (hrow : w.dispatch.findByKey key = none) :
      Flight w (.noted t) (tryCatch (insertSent key t) fun _ => pure ())

inductive Moves (w : World) : Phase → World → Phase → Prop
  | aside (ph : Phase) {w' : World} (h : Aside key w w') : Moves w ph w' ph
  | begin (hdue : Due key g w) : Moves w .quiet w .due
  | giveUp {w' : World} (h : Aside key w w') : Moves w .due w' .quiet
  | note (hdue : Due key g w) : Moves w .due
      { w with delivered := w.delivered ++ [⟨key, w.clock⟩] } (.noted w.clock)
  | record {t : ℤ} {w' : World} (h : Recorded key t w w') : Moves w (.noted t) w' .quiet

inductive Stands (w : World) : Phase → Prog World Unit → Prop
  | done {prog : Prog World Unit} (hdone : prog.finished = true) : Stands w .quiet prog
  | tick (ms : ℕ) : Stands w .quiet (Prog.write fun w => { w with clock := w.clock + ms })
  | handle (payload : AlertFiredEventPayload) : Stands w .quiet (o.handle payload)
  | routes (payload : AlertFiredEventPayload) (rs : List MatchedRoute)
      (hrs : ∀ r ∈ rs, Fits key g rep payload r) : Stands w .quiet (o.dispatchAll payload rs)
  | looking (payload : AlertFiredEventPayload) (r : MatchedRoute) (rs : List MatchedRoute) (now : ℤ)
      (hrs : ∀ r' ∈ r :: rs, Fits key g rep payload r') (hnow : now ≤ w.clock) :
      Stands w .quiet (lookup o payload r now >>= fun _ => o.dispatchAll payload rs)
  | other (payload : AlertFiredEventPayload) (rs : List MatchedRoute) {q : Prog World Unit}
      (hrs : ∀ r ∈ rs, Fits key g rep payload r)
      (hq : q.Holds Later (Aside key) (fun _ _ => True) w) :
      Stands w .quiet (q >>= fun _ => o.dispatchAll payload rs)
  | flight (payload : AlertFiredEventPayload) (rs : List MatchedRoute) {ph : Phase}
      {q : Prog World Unit} (hrs : ∀ r ∈ rs, Fits key g rep payload r)
      (hq : Flight o key g w ph q) (hremains : (o.sendAndRecord key).Remains q)
      (hnot : q.finished = false) : Stands w ph (q >>= fun _ => o.dispatchAll payload rs)

variable {o key g rep} {w w' : World} {ph ph' : Phase} {f : World → World}
  {k : World → Prog World Unit} {k₀ : Prog World Unit}

theorem Moves.later (h : Moves key g w ph w' ph') : Later w w' := by
  cases h with
  | aside _ h => exact h.later
  | begin => exact .refl w
  | giveUp h => exact h.later
  | note => exact ⟨le_rfl, rfl, .refl _⟩
  | record h => exact h.later

theorem Moves.books (h : Moves key g w ph w' ph') (hb : Books key g ph.pending w) :
    Books key g ph'.pending w' := by
  cases h with
  | aside _ h => exact hb.aside h
  | begin => exact hb
  | giveUp h => exact hb.aside h
  | note hdue => exact hb.note hdue
  | record h => exact hb.record h

theorem send_cases (is : List ContactPointIntegration) : ∀ anySent,
    (o.sendAll key is anySent >>= record key) = pure () ∨
      (o.sendAll key is anySent >>= record key).finished = false := by
  induction is with
  | nil =>
    intro anySent
    cases anySent
    · exact Or.inl rfl
    · exact Or.inr rfl
  | cons integration rest ih =>
    intro anySent
    rw [sendAll]
    split
    · exact Or.inr rfl
    · exact ih anySent

theorem aside_sends (sends : List Send) : Aside key w { w with sends } :=
  ⟨⟨le_rfl, rfl, .refl _⟩, rfl, rfl, rfl⟩

theorem send_step (is : List ContactPointIntegration) :
    ∀ anySent, (o.sendAll key is anySent >>= record key) = .sect f k →
      (Aside key w (f w) ∧ ∃ is' anySent', k w = (o.sendAll key is' anySent' >>= record key)) ∨
      (f w = { w with delivered := w.delivered ++ [⟨key, w.clock⟩] } ∧
        k w = tryCatch (upsertSent key w.clock) fun _ => pure ()) := by
  induction is with
  | nil =>
    intro anySent h
    cases anySent with
    | false => cases h
    | true =>
      cases h
      exact Or.inr ⟨rfl, rfl⟩
  | cons integration rest ih =>
    intro anySent h
    rw [sendAll] at h
    split at h
    · cases h
      exact Or.inl ⟨aside_sends _, rest, _, rfl⟩
    · exact ih anySent h

theorem recorded_update {row : DispatchRow} (hrow : w.dispatch.findByKey key = some row) (t : ℤ) :
    Recorded key t w { w with
      dispatch := w.dispatch.update row.id t (row.sentCount + 1)
      recorded := w.recorded ++ [⟨row.key, t⟩] } where
  later := ⟨le_rfl, rfl, w.dispatch.grows_update _ _ _⟩
  row := by
    refine ⟨{ row with lastSentAt := t, sentCount := row.sentCount + 1 }, ?_, rfl, ?_⟩
    · show (w.dispatch.update _ _ _).findByKey key = _
      rw [DispatchTable.findByKey_update hrow, if_pos rfl]
    · rw [hrow]
      rfl
  delivered := rfl
  recorded := by
    show times key (w.recorded ++ _) = _
    rw [times_append, if_pos (DispatchTable.mem_of_findByKey hrow).2]

theorem recorded_insert {table : DispatchTable} {t : ℤ}
    (hrow : w.dispatch.findByKey key = none) (h : w.dispatch.insert key t = .ok table) :
    Recorded key t w { w with
      dispatch := table, recorded := w.recorded ++ [⟨key, t⟩] } where
  later := ⟨le_rfl, rfl, DispatchTable.grows_insert h⟩
  row := by
    refine ⟨⟨w.dispatch.nextId, key, t, 1⟩, ?_, rfl, ?_⟩
    · show table.findByKey key = _
      rw [DispatchTable.findByKey_insert h, if_pos rfl]
    · rw [hrow]
      rfl
  delivered := rfl
  recorded := by
    show times key (w.recorded ++ _) = _
    rw [times_append, if_pos rfl]

theorem Flight.step (hown : ∀ r ∈ w.dispatch.rows, r.key.index = key.index → r.key = key)
    (h : Flight o key g w ph (.sect f k)) :
    (∃ ph', Flight o key g (f w) ph' (k w) ∧ (k w).finished = false ∧
      Moves key g w ph (f w) ph') ∨
    (k w = pure () ∧ Moves key g w ph (f w) .quiet) := by
  have hgoOn : ∀ is anySent, Due key g w → Aside key w (f w) →
      k w = (o.sendAll key is anySent >>= record key) →
      (∃ ph', Flight o key g (f w) ph' (k w) ∧ (k w).finished = false ∧
        Moves key g w .due (f w) ph') ∨
      (k w = pure () ∧ Moves key g w .due (f w) .quiet) := by
    intro is anySent hdue haside hk
    rw [hk]
    have hcases : (o.sendAll key is anySent >>= record key) = pure () ∨
        (o.sendAll key is anySent >>= record key).finished = false := send_cases is anySent
    rcases hcases with hover | hnot
    · exact Or.inr ⟨hover, .giveUp haside⟩
    · exact Or.inl ⟨.due, .send (hdue.aside haside) is anySent, hnot, .aside _ haside⟩
  generalize hprog : Prog.sect f k = prog at h
  cases h with
  | find hdue =>
    rw [sendAndRecord, findContactPoint] at hprog
    cases hprog
    have haside : Aside key w { w with tried := w.tried ++ [key] } :=
      ⟨⟨le_rfl, rfl, .refl _⟩, rfl, rfl, rfl⟩
    cases hcp : w.contactPoints.find? (·.id = key.contactPointId) with
    | none => exact Or.inr ⟨by simp only [hcp]; rfl, .giveUp haside⟩
    | some cp => exact hgoOn cp.integrations false hdue haside (by simp only [hcp]; rfl)
  | send hdue is anySent =>
    rcases send_step (w := w) is anySent hprog.symm with ⟨haside, is', anySent', hk⟩ | ⟨hf, hk⟩
    · exact hgoOn is' anySent' hdue haside hk
    · rw [hf, hk]
      exact Or.inl ⟨_, .upsert w.clock, rfl, .note hdue⟩
  | upsert t =>
    cases hprog
    refine Or.inl ⟨.noted t, ?_, ?_, .aside _ (.refl w)⟩
    · cases hrow : w.dispatch.findByKey key with
      | none =>
        simp only [hrow]
        exact .insert t hrow
      | some row =>
        simp only [hrow]
        exact .update t hrow
    · cases hrow : w.dispatch.findByKey key with
      | none => simp only [hrow]; rfl
      | some row => simp only [hrow]; rfl
  | update t hrow =>
    cases hprog
    exact Or.inr ⟨rfl, .record (recorded_update hrow t)⟩
  | insert t hrow =>
    obtain ⟨table, htable⟩ := DispatchTable.insert_of_findByKey_none hown hrow t
    cases hprog
    refine Or.inr ⟨?_, ?_⟩
    · simp only [htable]
      rfl
    · simp only [htable]
      exact .record (recorded_insert hrow htable)

theorem aside_of_ne {key' : DispatchKey} (hne : key' ≠ key) {table : DispatchTable} {t : ℤ}
    (hgrows : w.dispatch.Grows table) (hrow : table.findByKey key = w.dispatch.findByKey key) :
    Aside key w { w with
      dispatch := table, recorded := w.recorded ++ [⟨key', t⟩] } where
  later := ⟨le_rfl, rfl, hgrows⟩
  row := hrow
  delivered := rfl
  recorded := by
    show times key (w.recorded ++ _) = _
    rw [times_append, if_neg hne, List.append_nil]

theorem upsertSent_aside {key' : DispatchKey} (hne : key' ≠ key) (t : ℤ) (w : World) :
    (upsertSent key' t).Holds Later (Aside key) (fun _ _ => True) w := by
  refine Prog.holds_read_bind.mpr fun w₁ _ => ⟨.refl w₁, ?_⟩
  cases hrow : w₁.dispatch.findByKey key' with
  | some row =>
    obtain ⟨hmem, hkey⟩ := DispatchTable.mem_of_findByKey hrow
    refine Prog.holds_write.mpr fun w₂ hlater => ⟨?_, trivial⟩
    have hrowne : row.key ≠ key := hkey ▸ hne
    exact aside_of_ne hrowne (w₂.dispatch.grows_update _ _ _)
      (DispatchTable.findByKey_update_of_grows hlater.rows hmem hrowne _ _)
  | none =>
    refine Prog.holds_attempt.mpr fun w₂ _ => ⟨?_, trivial⟩
    cases hinsert : w₂.dispatch.insert key' t with
    | error e => exact .refl w₂
    | ok table =>
      refine aside_of_ne hne (DispatchTable.grows_insert hinsert) ?_
      rw [DispatchTable.findByKey_insert hinsert, if_neg (Ne.symm hne)]

theorem sendAll_aside (key' : DispatchKey) (is : List ContactPointIntegration) :
    ∀ (anySent : Bool) (w : World),
      (o.sendAll key' is anySent).Holds Later (Aside key) (fun _ _ => True) w := by
  induction is with
  | nil => exact fun _ _ => trivial
  | cons integration rest ih =>
    intro anySent w
    rw [sendAll]
    split
    · exact Prog.holds_atomic_bind.mpr fun w₁ _ => ⟨aside_sends _, ih _ _⟩
    · exact ih anySent w

theorem sendAndRecord_aside {key' : DispatchKey} (hne : key' ≠ key) (w : World) :
    (o.sendAndRecord key').Holds Later (Aside key) (fun _ _ => True) w := by
  refine Prog.holds_atomic_bind.mpr fun w₁ _ => ⟨⟨⟨le_rfl, rfl, .refl _⟩, rfl, rfl, rfl⟩, ?_⟩
  cases w₁.contactPoints.find? (·.id = key'.contactPointId) with
  | none => trivial
  | some cp =>
    refine Prog.Holds.bind_any (sendAll_aside key' _ _ _) fun anySent w₂ => ?_
    split
    · refine Prog.holds_atomic_bind.mpr fun w₃ _ => ⟨⟨⟨le_rfl, rfl, .refl _⟩, rfl, ?_, rfl⟩, ?_⟩
      · show times key (w₃.delivered ++ _) = _
        rw [times_append, if_neg hne, List.append_nil]
      · exact Prog.Holds.swallow (upsertSent_aside hne _ _)
    · trivial

theorem due_of_sendNow (hrep : g ≤ rep) {payload : AlertFiredEventPayload} {route : MatchedRoute}
    (hfits : Fits key g rep payload route) (hkey : routeKey payload route = key) {now : ℤ}
    (hnow : now ≤ w.clock)
    (hdec : decideDispatch (w.dispatch.findByKey key) route now = .sendNow) : Due key g w := by
  intro row hrow
  obtain ⟨hgroup, hrepeat⟩ := hfits hkey
  have hnot : ¬ decideDispatch (w.dispatch.findByKey key) route now = .skipGroupWindow := by
    rw [hdec]
    exact DispatchDecision.noConfusion
  rw [decideDispatch_eq_skip_iff, hrow, hgroup, hrepeat] at hnot
  have helapsed : g * 1000 ≤ ((now - row.lastSentAt : ℤ) : ℚ) := by
    by_contra hshort
    refine hnot ⟨row, rfl, not_le.mp hshort, fun hagain => hshort ?_⟩
    linarith [hagain.2]
  have hclock : ((now - row.lastSentAt : ℤ) : ℚ) ≤ ((w.clock - row.lastSentAt : ℤ) : ℚ) := by
    exact_mod_cast Int.sub_le_sub_right hnow _
  exact helapsed.trans hclock

theorem Flight.aside (h : Flight o key g w ph k₀) (ha : Aside key w w') :
    Flight o key g w' ph k₀ := by
  cases h with
  | find hdue => exact .find (hdue.aside ha)
  | send hdue is anySent => exact .send (hdue.aside ha) is anySent
  | upsert t => exact .upsert t
  | update t hrow => exact .update t (ha.row.trans hrow)
  | insert t hrow => exact .insert t (ha.row.trans hrow)

theorem Flight.not_quiet {q : Prog World Unit} : ¬ Flight o key g w .quiet q := by
  intro h
  cases h

theorem Stands.later {prog : Prog World Unit} (h : Stands o key g rep w .quiet prog)
    (hl : Later w w') : Stands o key g rep w' .quiet prog := by
  cases h with
  | done hdone => exact .done hdone
  | tick ms => exact .tick ms
  | handle payload => exact .handle payload
  | routes payload rs hrs => exact .routes payload rs hrs
  | looking payload r rs now hrs hnow => exact .looking payload r rs now hrs (hnow.trans hl.clock)
  | other payload rs hrs hq =>
    exact .other payload rs hrs
      (hq.shift (fun _ _ _ h h' => h.trans h') (fun _ _ _ _ _ => trivial) hl)
  | flight payload rs hrs hq => exact absurd hq Flight.not_quiet

theorem Stands.aside {prog : Prog World Unit} (h : Stands o key g rep w ph prog)
    (ha : Aside key w w') : Stands o key g rep w' ph prog := by
  cases h with
  | flight payload rs hrs hq hremains hnot =>
    exact .flight payload rs hrs (hq.aside ha) hremains hnot
  | done hdone => exact (Stands.done hdone : Stands o key g rep w .quiet _).later ha.later
  | tick ms => exact .tick ms
  | handle payload => exact .handle payload
  | routes payload rs hrs => exact .routes payload rs hrs
  | looking payload r rs now hrs hnow =>
    exact (Stands.looking payload r rs now hrs hnow).later ha.later
  | other payload rs hrs hq => exact (Stands.other payload rs hrs hq).later ha.later

theorem lookup_step {payload : AlertFiredEventPayload} {route : MatchedRoute} {now : ℤ}
    {rest : Unit → Prog World Unit} (h : (lookup o payload route now >>= rest) = .sect f k) :
    f w = w ∧ k w = (match decideDispatch (w.dispatch.findByKey (routeKey payload route)) route
        now with
      | .skipGroupWindow => pure ()
      | .sendNow => o.sendAndRecord (routeKey payload route)) >>= rest := by
  cases h
  exact ⟨rfl, rfl⟩

theorem routes_step {payload : AlertFiredEventPayload} {rs : List MatchedRoute}
    (hrs : ∀ r ∈ rs, Fits key g rep payload r)
    (h : o.dispatchAll payload rs = .sect f k) :
    f w = w ∧ Stands o key g rep w .quiet (k w) := by
  cases rs with
  | nil => cases h
  | cons r rs =>
    cases h
    exact ⟨rfl, .looking payload r rs w.clock hrs le_rfl⟩

/-- **What a section does.** It leaves the handle in a phase that fits what it did. -/
theorem Stands.step (hrep : g ≤ rep)
    (hown : ∀ r ∈ w.dispatch.rows, r.key.index = key.index → r.key = key)
    (hconf : ∀ payload, ∀ r ∈ o.routesOf payload w, Fits key g rep payload r)
    {prog : Prog World Unit} (h : Stands o key g rep w ph prog) (hprog : prog = .sect f k) :
    ∃ ph', Stands o key g rep (f w) ph' (k w) ∧ Moves key g w ph (f w) ph' := by
  cases h with
  | done hdone =>
    rw [hprog] at hdone
    cases hdone
  | tick ms =>
    cases hprog
    refine ⟨.quiet, .done rfl, .aside _ ⟨⟨?_, rfl, .refl _⟩, rfl, rfl, rfl⟩⟩
    show w.clock ≤ w.clock + ms
    omega
  | handle payload =>
    cases hprog
    exact ⟨.quiet, .routes payload _ (hconf payload), .aside _ (.refl w)⟩
  | routes payload rs hrs =>
    obtain ⟨hf, hstands⟩ := routes_step (w := w) hrs hprog
    rw [hf]
    exact ⟨.quiet, hstands, .aside _ (.refl w)⟩
  | looking payload r rs now hrs hnow =>
    obtain ⟨hf, hk⟩ := lookup_step (w := w) hprog
    have hrest := fun r' hr' => hrs r' (List.mem_cons_of_mem _ hr')
    rw [hf, hk]
    cases hdec : decideDispatch (w.dispatch.findByKey (routeKey payload r)) r now with
    | skipGroupWindow => exact ⟨.quiet, .routes payload rs hrest, .aside _ (.refl w)⟩
    | sendNow =>
      by_cases hkey : routeKey payload r = key
      · rw [hkey] at hdec ⊢
        have hdue := due_of_sendNow hrep (hrs r List.mem_cons_self) hkey hnow hdec
        exact ⟨.due, .flight payload rs hrest (.find hdue) .refl rfl, .begin hdue⟩
      · exact ⟨.quiet, .other payload rs hrest (sendAndRecord_aside hkey w),
          .aside _ (.refl w)⟩
  | @other payload rs q hrs hq =>
    cases q with
    | ret a =>
      obtain ⟨hf, hstands⟩ := routes_step (w := w) hrs hprog
      rw [hf]
      exact ⟨.quiet, hstands, .aside _ (.refl w)⟩
    | fail e => cases hprog
    | sect f' k' =>
      cases hprog
      obtain ⟨haside, hrest⟩ := hq w (.refl w)
      exact ⟨.quiet, .other payload rs hrs hrest, .aside _ haside⟩
  | @flight payload rs ph q hrs hq hremains hnot =>
    cases q with
    | ret a => cases hnot
    | fail e => cases hnot
    | sect f' k' =>
      cases hprog
      rcases hq.step hown with ⟨ph', hq', hnot', hmoves⟩ | ⟨hover, hmoves⟩
      · exact ⟨ph', .flight payload rs hrs hq' (hremains.step w) hnot', hmoves⟩
      · refine ⟨.quiet, ?_, hmoves⟩
        dsimp only
        rw [hover]
        exact .routes payload rs hrs

end Places

/-! ## Any number of events -/

inductive ConsumerOp : Type where
  | event (payload : AlertFiredEventPayload)
  | tick (ms : ℕ)

def ConsumerOp.code (o : NotificationConsumer) : ConsumerOp → Prog World Unit
  | .event payload => o.handle payload
  | .tick ms => Prog.write fun w => { w with clock := w.clock + ms }

/-- The thread is in `sendAndRecord` for the key. -/
def InFlight (o : NotificationConsumer) (key : DispatchKey) (th : Thread World ConsumerOp Unit) :
    Prop :=
  ∃ (q : Prog World Unit) (rest : Unit → Prog World Unit), (o.sendAndRecord key).Remains q ∧
    q.finished = false ∧ th.prog = q >>= rest

/-- A handle decides to send for the key only while no other one is on the way from such a
decision to its record, and no other org has a row of the same index. -/
structure InTurn (o : NotificationConsumer) (key : DispatchKey)
    (c : Config World ConsumerOp Unit) (l : Label ConsumerOp) : Prop where
  own : ∀ row ∈ c.st.dispatch.rows, row.key.index = key.index → row.key = key
  one : ∀ c', c.next (ConsumerOp.code o) l = some c' →
    ∀ (i j : ℕ) (th th' : Thread World ConsumerOp Unit), c'.threads[i]? = some th →
      c'.threads[j]? = some th' → InFlight o key th → InFlight o key th' → i = j

def Configured (o : NotificationConsumer) (key : DispatchKey) (g rep : ℚ)
    (tree : Option NotificationPolicyNode) : Prop :=
  ∀ (payload : AlertFiredEventPayload) (w : World), w.policyTree = tree →
    ∀ r ∈ o.routesOf payload w, Fits key g rep payload r

/-- Thread `j` has phase `ph`, and the others have nothing under way for the key. -/
structure Shared (o : NotificationConsumer) (key : DispatchKey) (g rep : ℚ)
    (tree : Option NotificationPolicyNode) (c : Config World ConsumerOp Unit) (j : ℕ)
    (ph : Phase) : Prop where
  tree : c.st.policyTree = tree
  books : Books key g ph.pending c.st
  mine : ph = .quiet ∨ ∃ th, c.threads[j]? = some th ∧ Stands o key g rep c.st ph th.prog
  others : ∀ (i : ℕ) (th : Thread World ConsumerOp Unit), c.threads[i]? = some th →
    i ≠ j ∨ ph = .quiet → Stands o key g rep c.st .quiet th.prog

section Pool

variable {o : NotificationConsumer} {key : DispatchKey} {g rep : ℚ}
  {tree : Option NotificationPolicyNode} {c c' : Config World ConsumerOp Unit} {j : ℕ} {ph : Phase}

theorem inFlight_of_stands {th : Thread World ConsumerOp Unit} {w : World}
    (h : Stands o key g rep w ph th.prog) (hph : ph ≠ .quiet) : InFlight o key th := by
  generalize hprog : th.prog = prog at h
  cases h with
  | flight payload rs hrs hq hremains hnot => exact ⟨_, _, hremains, hnot, hprog⟩
  | _ => exact absurd rfl hph

theorem Shared.start (h : Shared o key g rep tree c j ph) {op : ConsumerOp}
    (hn : c.next (ConsumerOp.code o) (.start op) = some c') :
    Shared o key g rep tree c' j ph := by
  obtain ⟨hst, -⟩ := Config.next_start hn
  obtain ⟨hold, hnew⟩ := Config.next_start_threads hn
  refine ⟨hst ▸ h.tree, hst ▸ h.books, ?_, ?_⟩
  · rw [hst]
    exact h.mine.imp_right fun ⟨th, hj, hstands⟩ => ⟨th, hold j th hj, hstands⟩
  · intro i th hi hne
    rw [hst]
    rcases hnew i th hi with hi | rfl
    · exact h.others i th hi hne
    · cases op with
      | event payload => exact .handle payload
      | tick ms => exact .tick ms

theorem Shared.step (hrep : g ≤ rep) (hconf : Configured o key g rep tree)
    (h : Shared o key g rep tree c j ph) {i : ℕ} (hok : InTurn o key c (.step i))
    (hn : c.next (ConsumerOp.code o) (.step i) = some c') :
    ∃ j' ph', Shared o key g rep tree c' j' ph' := by
  obtain ⟨op, f, k, hi, hst, hi', hother⟩ := Config.next_step_threads hn
  have hroutes : ∀ payload, ∀ r ∈ o.routesOf payload c.st, Fits key g rep payload r :=
    fun payload => hconf payload c.st h.tree
  by_cases hij : i = j ∧ ph ≠ .quiet
  · -- the thread that is under way goes on
    obtain ⟨rfl, hph⟩ := hij
    obtain ⟨th, hth, hstands⟩ := h.mine.resolve_left hph
    cases hi.symm.trans hth
    obtain ⟨ph', hstands', hmoves⟩ := hstands.step hrep hok.own hroutes rfl
    refine ⟨i, ph', ?_, ?_, ?_, ?_⟩
    · rw [hst]
      exact hmoves.later.tree.trans h.tree
    · rw [hst]
      exact hmoves.books h.books
    · rw [hst]
      exact Or.inr ⟨_, hi', hstands'⟩
    · intro i₁ th₁ hi₁ hne
      rw [hst]
      by_cases hsame : i₁ = i
      · subst hsame
        cases hi'.symm.trans hi₁
        rw [hne.resolve_left (fun hne => hne rfl)] at hstands'
        exact hstands'
      · rw [hother i₁ hsame] at hi₁
        exact (h.others i₁ th₁ hi₁ (Or.inl hsame)).later hmoves.later
  · -- a thread without anything under way: it leaves the key alone, or takes its turn
    have hne : i ≠ j ∨ ph = .quiet := by
      by_contra hnot
      rw [not_or, not_not] at hnot
      exact hij hnot
    obtain ⟨ph', hstands', hmoves⟩ := (h.others i _ hi hne).step hrep hok.own hroutes rfl
    have hkept : Aside key c.st (f c.st) → ph' = .quiet → Shared o key g rep tree c' j ph := by
      rintro haside rfl
      refine ⟨?_, ?_, ?_, ?_⟩
      · rw [hst]
        exact haside.later.tree.trans h.tree
      · rw [hst]
        exact h.books.aside haside
      · rcases hne with hne | hquiet
        · rw [hst]
          refine h.mine.imp_right fun ⟨th, hj, hstands⟩ => ⟨th, ?_, hstands.aside haside⟩
          rw [hother j (Ne.symm hne)]
          exact hj
        · exact Or.inl hquiet
      · intro i₁ th₁ hi₁ hne₁
        rw [hst]
        by_cases hsame : i₁ = i
        · subst hsame
          cases hi'.symm.trans hi₁
          exact hstands'
        · rw [hother i₁ hsame] at hi₁
          exact (h.others i₁ th₁ hi₁ hne₁).later haside.later
    generalize f c.st = w' at hst hstands' hmoves hkept
    cases hmoves with
    | aside _ haside => exact ⟨j, ph, hkept haside rfl⟩
    | begin hdue =>
      -- nobody else is under way
      have hquiet : ph = .quiet := by
        by_contra hph
        obtain ⟨th, hj, hstands⟩ := h.mine.resolve_left hph
        have hji := hne.resolve_right hph
        rw [← hother j (Ne.symm hji)] at hj
        exact hji (hok.one c' hn i j _ th hi' hj
          (inFlight_of_stands hstands' (fun hcon => by cases hcon))
          (inFlight_of_stands hstands hph))
      subst hquiet
      refine ⟨i, .due, ?_, ?_, ?_, ?_⟩
      · rw [hst]
        exact h.tree
      · rw [hst]
        exact h.books
      · rw [hst]
        exact Or.inr ⟨_, hi', hstands'⟩
      · intro i₁ th₁ hi₁ hne₁
        have hsame := hne₁.resolve_right (fun hcon => by cases hcon)
        rw [hst]
        rw [hother i₁ hsame] at hi₁
        exact h.others i₁ th₁ hi₁ (Or.inr rfl)

/-- **Dispatch spacing.** Where the repeat interval is not below the group interval and the
handles take turns, sends are spaced and counted. -/
theorem dispatch_spacing (o : NotificationConsumer) (key : DispatchKey) (g rep : ℚ) (w₀ : World)
    (hrep : g ≤ rep) (hconf : Configured o key g rep w₀.policyTree) (hnew : Untouched key w₀)
    (c : Config World ConsumerOp Unit)
    (h : Run (ConsumerOp.code o) (InTurn o key) ⟨w₀, []⟩ c) : Spacing key g c.st := by
  have hshared : ∃ j ph, Shared o key g rep w₀.policyTree c j ph := by
    induction h with
    | init =>
      exact ⟨0, .quiet, rfl, hnew.books, Or.inl rfl, fun i th hi => by cases hi⟩
    | tail l _ hok hn ih =>
      obtain ⟨j, ph, hshared⟩ := ih
      cases l with
      | start op => exact ⟨j, ph, hshared.start hn⟩
      | step i => exact hshared.step hrep hconf hok hn
  obtain ⟨j, ph, hshared⟩ := hshared
  exact hshared.books.spacing

end Pool

/-! ## Two events of one alert -/

/-- The key of the alert of the team `web`. -/
def webKey : DispatchKey := ⟨"org_main", "fp_1", "cp_web", ""⟩

theorem configured_web :
    Configured plainConsumer webKey 300 3600 (some (rootPolicy "" [webPolicy []])) := by
  intro payload w htree r hr _
  have hwalk : r ∈ walk plainConsumer.regExp payload.labels (rootPolicy "" [webPolicy []]) := by
    rw [routesOf, World.getPolicyTree, htree] at hr
    exact mem_of_mem_uniqueRoutes hr
  have hroute : r = toRoute (webPolicy []) := by
    cases hmatch : matchersMatch plainConsumer.regExp payload.labels
        (webPolicy []).value.matchers with
    | false => simp [rootPolicy, walk, walkChildren, hmatch] at hwalk
    | true =>
      rw [rootPolicy, walk, walkChildren, hmatch] at hwalk
      simpa [webPolicy, walk, walkChildren, continues, Rose.value] using hwalk
  rw [hroute]
  exact ⟨rfl, rfl⟩

/-- One event is sent and recorded. -/
theorem dispatch_spacing_once : ∃ c,
    Run (ConsumerOp.code plainConsumer) (InTurn plainConsumer webKey) ⟨slackWorld, []⟩ c ∧
      Spacing webKey 300 c.st ∧ times webKey c.st.recorded = [50] := by
  have hturn : ∀ {c : Config World ConsumerOp Unit} {l}, c.st.dispatch.rows = [] →
      (∀ c', c.next (ConsumerOp.code plainConsumer) l = some c' → c'.threads.length = 1) →
      InTurn plainConsumer webKey c l := by
    intro c l hrows hlen
    refine ⟨fun row hrow => ?_, fun c' hn i j th th' hi hj _ _ => ?_⟩
    · rw [hrows] at hrow
      cases hrow
    · have hone := hlen c' hn
      have hi' := (List.getElem?_eq_some_iff.mp hi).1
      have hj' := (List.getElem?_eq_some_iff.mp hj).1
      omega
  obtain ⟨c, hexec⟩ : ∃ c, Config.exec (ConsumerOp.code plainConsumer) ⟨slackWorld, []⟩
      [.start (.event webAlert), .step 0, .step 0, .step 0, .step 0, .step 0, .step 0, .step 0,
        .step 0] = some c := ⟨_, rfl⟩
  have hrun : Run (ConsumerOp.code plainConsumer) (InTurn plainConsumer webKey)
      ⟨slackWorld, []⟩ c := by
    refine Run.of_exec .init ?_ hexec
    iterate 9
      refine ⟨hturn rfl (by rintro c' ⟨⟩; rfl), ?_⟩
      rintro c' ⟨⟩
    trivial
  refine ⟨c, hrun, dispatch_spacing plainConsumer webKey 300 3600 slackWorld (by decide)
    configured_web ⟨rfl, rfl, rfl⟩ c hrun, ?_⟩
  cases hexec
  decide +kernel

/-- Two events that are handled at the same time are both sent. -/
theorem concurrent_events_sent_twice :
    ¬ ∀ (o : NotificationConsumer) (key : DispatchKey) (g rep : ℚ) (w₀ : World),
      Configured o key g rep w₀.policyTree → Untouched key w₀ →
      ∀ c, Run (ConsumerOp.code o) (fun _ _ => True) ⟨w₀, []⟩ c → Spacing key g c.st := by
  intro hall
  obtain ⟨c, hexec⟩ : ∃ c, Config.exec (ConsumerOp.code plainConsumer) ⟨slackWorld, []⟩
      [.start (.event webAlert), .start (.event webAlert), .step 0, .step 1, .step 0, .step 0,
        .step 1, .step 1, .step 0, .step 1, .step 0, .step 1, .step 0, .step 0, .step 0,
        .step 1, .step 1, .step 1] = some c := ⟨_, rfl⟩
  have hspacing := hall plainConsumer webKey 300 3600 slackWorld configured_web ⟨rfl, rfl, rfl⟩ c
    (.of_exec .init (allOk_of_forall (fun _ _ => trivial) _ _) hexec)
  have htimes : times webKey c.st.delivered = [50, 50] := by
    cases hexec
    decide +kernel
  have hgap := hspacing.spaced
  rw [htimes, List.isChain_cons_cons] at hgap
  exact absurd hgap.1 (by rw [Gap]; decide +kernel)

end OpenObs.Notifications
