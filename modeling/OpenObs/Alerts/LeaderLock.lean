import OpenObs.Foundation.Clock
import OpenObs.Foundation.Pool

/-!
# The leader lock

`services/leader-lock.ts`: a row that names the leader and the end of its lease. The replicas run
single SQL statements against it; each call reads the clock first, so a statement may be later than
the reading it carries.
-/

namespace OpenObs.Alerts.Lock

open OpenObs.Foundation

/-! ## The row and its statements -/

/-- What the JSON of the row holds under the two names; `none` where there is no string. -/
structure Stored where
  leaderId : Option String
  expiresAt : Option ℤ
deriving DecidableEq

structure LockValue where
  leaderId : String
  expiresAt : ℤ

structure LockClaim where
  ok : Bool
  leaderId : Option String := none

structure LeaderLock where
  leaderId : String
  ttlMs : ℚ := 30000

def LeaderLock.value (l : LeaderLock) (now : ℤ) : Stored :=
  ⟨some l.leaderId, some (timeClip (now + l.ttlMs))⟩

def parseValue (raw : Option Stored) : Option LockValue := do
  let v ← raw
  return ⟨← v.leaderId, ← v.expiresAt⟩

inductive Statement : Type where
  | insertOrTakeOver (now : ℤ)
  | readBack
  | extend (now : ℤ)
  | remove
deriving DecidableEq

def Statement.reading : Statement → Option ℤ
  | .insertOrTakeOver now => some now
  | .extend now => some now
  | _ => none

def Statement.apply (l : LeaderLock) : Statement → Option Stored → Option Stored
  | .insertOrTakeOver now, none => some (l.value now)
  | .insertOrTakeOver now, some cur =>
    if cur.expiresAt.any (· < now) then some (l.value now) else some cur
  | .readBack, row => row
  | .extend now, row =>
    row.map fun cur => if cur.leaderId = some l.leaderId then l.value now else cur
  | .remove, row => row.filter fun cur => cur.leaderId ≠ some l.leaderId

structure Entry where
  id : String
  stmt : Statement
  clock : ℤ
  before : Option Stored
  after : Option Stored
deriving DecidableEq

structure World where
  clock : ℤ
  row : Option Stored
  journal : List Entry := []

def World.execute (w : World) (l : LeaderLock) (stmt : Statement) : World :=
  { w with
    row := stmt.apply l w.row
    journal := w.journal ++ [⟨l.leaderId, stmt, w.clock, w.row, stmt.apply l w.row⟩] }

/-! ## The calls -/

def perform (l : LeaderLock) (stmt : Statement) : Prog World (Option Stored) :=
  Prog.atomic fun w => (w.row, w.execute l stmt)

def LeaderLock.wins (l : LeaderLock) (rows : Option Stored) : Bool :=
  (parseValue rows).any (·.leaderId = l.leaderId)

def LeaderLock.tryAcquire (l : LeaderLock) : Prog World LockClaim := do
  let now ← Prog.read (·.clock)
  let _ ← perform l (.insertOrTakeOver now)
  let rows ← perform l .readBack
  return if l.wins rows then { ok := true, leaderId := some l.leaderId } else { ok := false }

def LeaderLock.heartbeat (l : LeaderLock) : Prog World Bool := do
  let now ← Prog.read (·.clock)
  let _ ← perform l (.extend now)
  let rows ← perform l .readBack
  return l.wins rows

def LeaderLock.release (l : LeaderLock) : Prog World Unit := do
  let _ ← perform l .remove

inductive Method : Type where
  | tryAcquire
  | heartbeat
  | release

inductive LockOp : Type where
  | tick (ms : ℕ)
  | call (id : String) (method : Method)

def LockOp.caller : LockOp → Option String
  | .tick _ => none
  | .call id _ => some id

def code (ttlMs : String → ℚ) : LockOp → Prog World Unit
  | .tick ms => Prog.write fun w => { w with clock := w.clock + ms }
  | .call id .tryAcquire => do let _ ← LeaderLock.tryAcquire ⟨id, ttlMs id⟩
  | .call id .heartbeat => do let _ ← LeaderLock.heartbeat ⟨id, ttlMs id⟩
  | .call id .release => LeaderLock.release ⟨id, ttlMs id⟩

def OneCallEach (c : Config World LockOp Unit) : Label LockOp → Prop
  | .start o => ∀ id, o.caller = some id →
      ∀ th ∈ c.threads, th.op.caller = some id → th.prog.finished = true
  | .step _ => True

/-! ## Journals -/

/-- The reading of a statement is not ahead of the clock, nor behind one the replica has
used before. -/
def World.Timely (w : World) (id : String) (stmt : Statement) : Prop :=
  ∀ t, stmt.reading = some t → t ≤ w.clock ∧
    ∀ e ∈ w.journal, e.id = id → ∀ t', e.stmt.reading = some t' → t' ≤ t

inductive Chronicle (ttlMs : String → ℚ) : World → Prop
  | start (clock : ℤ) (row : Option Stored) : Chronicle ttlMs ⟨clock, row, []⟩
  | tick {w : World} (ms : ℕ) : Chronicle ttlMs w →
      Chronicle ttlMs { w with clock := w.clock + ms }
  | statement {w : World} {id : String} {stmt : Statement} : Chronicle ttlMs w →
      w.Timely id stmt → Chronicle ttlMs (w.execute ⟨id, ttlMs id⟩ stmt)

/-- The entry leaves a lease of its replica, counted from the reading `t`. -/
def Entry.Wrote (ttlMs : String → ℚ) (e : Entry) (t : ℤ) : Prop :=
  e.stmt.reading = some t ∧ e.after = some (LeaderLock.value ⟨e.id, ttlMs e.id⟩ t)

section Law

variable {ttlMs : String → ℚ} {w : World} {e : Entry} {t : ℤ}

theorem Chronicle.reading_le (h : Chronicle ttlMs w) :
    ∀ e ∈ w.journal, ∀ t, e.stmt.reading = some t → t ≤ w.clock := by
  induction h with
  | start clock row =>
    intro e he
    cases he
  | tick ms _ ih =>
    intro e he t ht
    have hle := ih e he t ht
    show t ≤ _ + (ms : ℤ)
    omega
  | statement _ htimely ih =>
    intro e he t ht
    rcases List.mem_append.mp he with he | he
    · exact ih e he t ht
    · rw [List.mem_singleton] at he
      subst he
      exact (htimely t ht).1

theorem Chronicle.after_eq (h : Chronicle ttlMs w) :
    ∀ e ∈ w.journal, e.after = e.stmt.apply ⟨e.id, ttlMs e.id⟩ e.before := by
  induction h with
  | start clock row =>
    intro e he
    cases he
  | tick ms _ ih => exact ih
  | statement _ _ ih =>
    intro e he
    rcases List.mem_append.mp he with he | he
    · exact ih e he
    · rw [List.mem_singleton] at he
      subst he
      rfl

theorem apply_own {id : String} {x : ℤ} {stmt : Statement} (hstmt : stmt ≠ .remove)
    (hle : ∀ t', stmt.reading = some t' → t ≤ t')
    (hx : timeClip (t + ttlMs id) ≤ x) :
    ∃ y, stmt.apply ⟨id, ttlMs id⟩ (some ⟨some id, some x⟩) = some ⟨some id, some y⟩ ∧
      timeClip (t + ttlMs id) ≤ y := by
  have hrenew : ∀ now, t ≤ now → timeClip (t + ttlMs id) ≤ timeClip (now + ttlMs id) := by
    intro now hnow
    have hcast : (t : ℚ) ≤ now := by exact_mod_cast hnow
    exact timeClip_mono (by linarith)
  cases stmt with
  | insertOrTakeOver now =>
    simp only [Statement.apply, Option.any_some]
    split
    · exact ⟨_, rfl, hrenew now (hle now rfl)⟩
    · exact ⟨x, rfl, hx⟩
  | readBack => exact ⟨x, rfl, hx⟩
  | extend now =>
    refine ⟨timeClip (now + ttlMs id), ?_, hrenew now (hle now rfl)⟩
    simp [Statement.apply, LeaderLock.value]
  | remove => exact absurd rfl hstmt

theorem apply_other {l : LeaderLock} {id : String} {x : ℤ} {stmt : Statement}
    (hid : l.leaderId ≠ id) (hlive : ∀ t', stmt.reading = some t' → t' ≤ x) :
    stmt.apply l (some ⟨some id, some x⟩) = some ⟨some id, some x⟩ := by
  cases stmt with
  | insertOrTakeOver now =>
    have hle := hlive now rfl
    simp [Statement.apply, not_lt.mpr hle]
  | readBack => rfl
  | extend now => simp [Statement.apply, Ne.symm hid]
  | remove => simp [Statement.apply, Ne.symm hid]

theorem Chronicle.held (h : Chronicle ttlMs w) :
    ∀ {pre post : List Entry}, w.journal = pre ++ e :: post → e.Wrote ttlMs t →
      (∀ r ∈ post, r.id = e.id → r.stmt ≠ .remove) → (w.clock : ℚ) ≤ t + ttlMs e.id →
      ∃ x, w.row = some ⟨some e.id, some x⟩ ∧ timeClip (t + ttlMs e.id) ≤ x := by
  induction h with
  | start clock row =>
    intro pre post hj
    simp at hj
  | @tick w ms _ ih =>
    intro pre post hj hwrote hkeep hclock
    refine ih hj hwrote hkeep ?_
    push_cast at hclock
    have hms : (0 : ℚ) ≤ ms := Nat.cast_nonneg ms
    linarith
  | @statement w id stmt hw htimely ih =>
    intro pre post hj hwrote hkeep hclock
    rcases List.eq_nil_or_concat post with rfl | ⟨post, last, rfl⟩
    · -- the write itself
      obtain ⟨-, hlast⟩ := List.append_inj' hj rfl
      obtain rfl := (List.cons_eq_cons.mp hlast).1
      exact ⟨_, hwrote.2, le_rfl⟩
    · rw [List.concat_eq_append, ← List.cons_append, ← List.append_assoc] at hj
      obtain ⟨hold, hlast⟩ := List.append_inj' hj rfl
      have hlast_keep : last.id = e.id → last.stmt ≠ .remove := hkeep last (by simp)
      obtain rfl := (List.cons_eq_cons.mp hlast).1
      obtain ⟨x, hrow, hx⟩ := ih hold hwrote
        (fun r hr => hkeep r (by simp [hr])) hclock
      show ∃ y, stmt.apply _ w.row = _ ∧ _
      rw [hrow]
      by_cases hid : id = e.id
      · subst hid
        refine apply_own (hlast_keep rfl) (fun t' ht' => ?_) hx
        refine (htimely t' ht').2 e ?_ rfl t hwrote.1
        rw [hold]
        simp
      · refine ⟨x, apply_other hid (fun t' ht' => ?_), hx⟩
        exact ((htimely t' ht').1.trans (le_timeClip hclock)).trans hx

theorem Chronicle.others (h : Chronicle ttlMs w) :
    ∀ {pre mid post : List Entry} {e' : Entry}, w.journal = pre ++ e :: (mid ++ e' :: post) →
      e.Wrote ttlMs t → (∀ r ∈ mid, r.id = e.id → r.stmt ≠ .remove) → e'.id ≠ e.id →
      (e'.clock : ℚ) ≤ t + ttlMs e.id →
      e'.after = e'.before ∧ ∃ x, e'.before = some ⟨some e.id, some x⟩ := by
  induction h with
  | start clock row =>
    intro pre mid post e' hj
    simp at hj
  | tick ms _ ih => exact ih
  | @statement w id stmt hw htimely ih =>
    intro pre mid post e' hj hwrote hkeep hid hclock
    rcases List.eq_nil_or_concat post with rfl | ⟨post, last, rfl⟩
    · rw [← List.cons_append, ← List.append_assoc] at hj
      obtain ⟨hold, hlast⟩ := List.append_inj' hj rfl
      obtain rfl := (List.cons_eq_cons.mp hlast).1
      obtain ⟨x, hrow, hx⟩ := hw.held hold hwrote hkeep hclock
      refine ⟨?_, x, hrow⟩
      show stmt.apply _ w.row = w.row
      rw [hrow]
      refine apply_other hid (fun t' ht' => ?_)
      exact ((htimely t' ht').1.trans (le_timeClip hclock)).trans hx
    · have hsplit : pre ++ e :: (mid ++ e' :: post.concat last) =
          (pre ++ e :: (mid ++ e' :: post)) ++ [last] := by simp
      exact ih (List.append_inj' (hj.trans hsplit) rfl).1 hwrote hkeep hid hclock

end Law

/-! ## The replicas write chronicles -/

section Replicas

variable {ttlMs : String → ℚ}

def Relies (ttlMs : String → ℚ) : LockOp → World → World → Prop
  | .tick _, _, _ => True
  | .call id _, s, t => s.clock ≤ t.clock ∧ Chronicle ttlMs t ∧
      ∀ e ∈ t.journal, e.id = id → e ∈ s.journal

def Does (ttlMs : String → ℚ) : LockOp → World → World → Prop
  | .tick ms, s, t => t = { s with clock := s.clock + ms }
  | .call id _, s, t => t = s ∨ ∃ stmt, s.Timely id stmt ∧ t = s.execute ⟨id, ttlMs id⟩ stmt

theorem Does.chronicle {o : LockOp} {s t : World} (h : Does ttlMs o s t)
    (hs : Chronicle ttlMs s) : Chronicle ttlMs t := by
  cases o with
  | tick ms =>
    rw [show t = _ from h]
    exact hs.tick ms
  | call id method =>
    rcases h with rfl | ⟨stmt, htimely, rfl⟩
    · exact hs
    · exact hs.statement htimely

theorem Does.tolerated {o o' : LockOp} {s t : World} (h : Does ttlMs o s t)
    (hs : Chronicle ttlMs s) (hapart : ∀ id, o.caller = some id → o'.caller ≠ some id) :
    Relies ttlMs o' s t := by
  cases o' with
  | tick ms => trivial
  | call id' method' =>
    refine ⟨?_, h.chronicle hs, ?_⟩
    · cases o with
      | tick ms =>
        rw [show t = _ from h]
        show s.clock ≤ s.clock + (ms : ℤ)
        omega
      | call id method =>
        rcases h with rfl | ⟨stmt, -, rfl⟩
        · exact le_rfl
        · exact le_rfl
    · intro e he hid
      cases o with
      | tick ms =>
        rw [show t = _ from h] at he
        exact he
      | call id method =>
        rcases h with rfl | ⟨stmt, -, rfl⟩
        · exact he
        · rcases List.mem_append.mp he with he | he
          · exact he
          · rw [List.mem_singleton] at he
            subst he
            exact absurd (congrArg some hid.symm) (hapart id rfl)

theorem timely_of_no_reading {w : World} {id : String} {stmt : Statement}
    (h : stmt.reading = none) : w.Timely id stmt := by
  intro t ht
  rw [h] at ht
  cases ht

theorem timely_of_read {s t : World} {id : String} {method : Method} {stmt : Statement}
    (hs : Chronicle ttlMs s) (hst : Relies ttlMs (.call id method) s t)
    (hstmt : stmt.reading = some s.clock) : t.Timely id stmt := by
  intro now hnow
  obtain ⟨hclock, -, hsame⟩ := hst
  obtain rfl : s.clock = now := Option.some.inj (hstmt.symm.trans hnow)
  exact ⟨hclock, fun e he hid t' ht' => hs.reading_le e (hsame e he hid) t' ht'⟩

theorem renewal_holds {α : Type} {id : String} {method : Method} {write : ℤ → Statement}
    (hwrite : ∀ now, (write now).reading = some now) {answer : Option Stored → α} {s : World} :
    (do
      let now ← Prog.read (fun w : World => w.clock)
      let _ ← perform ⟨id, ttlMs id⟩ (write now)
      let rows ← perform ⟨id, ttlMs id⟩ .readBack
      (pure (answer rows) : Prog World α)).Holds
        (Relies ttlMs (.call id method)) (Does ttlMs (.call id method)) (fun _ _ => True) s := by
  refine Prog.holds_read_bind.mpr fun t hst => ⟨Or.inl rfl, ?_⟩
  refine Prog.holds_atomic_bind.mpr fun u htu => ⟨Or.inr ⟨_, ?_, rfl⟩, ?_⟩
  · exact timely_of_read hst.2.1 htu (hwrite _)
  · refine Prog.holds_atomic_bind.mpr fun v _ => ⟨Or.inr ⟨_, ?_, rfl⟩, trivial⟩
    exact timely_of_no_reading rfl

theorem code_holds (o : LockOp) (s : World) :
    (code ttlMs o).Holds (Relies ttlMs o) (Does ttlMs o) (fun _ _ => True) s := by
  cases o with
  | tick ms => exact Prog.holds_write.mpr fun t _ => ⟨rfl, trivial⟩
  | call id method =>
    cases method with
    | tryAcquire => exact (renewal_holds fun _ => rfl).discard
    | heartbeat => exact (renewal_holds fun _ => rfl).discard
    | release =>
      refine Prog.holds_atomic_bind.mpr fun t _ => ⟨Or.inr ⟨.remove, ?_, rfl⟩, trivial⟩
      exact timely_of_no_reading rfl

theorem run_chronicle {c₀ c : Config World LockOp Unit} (h₀ : c₀.threads = [])
    (hempty : c₀.st.journal = []) (h : Run (code ttlMs) OneCallEach c₀ c) :
    Chronicle ttlMs c.st := by
  have hfirst : Chronicle ttlMs c₀.st := by
    obtain ⟨⟨clock, row, journal⟩, threads⟩ := c₀
    obtain rfl : journal = [] := hempty
    exact .start clock row
  refine (Run.rely_guarantee_within (I := Chronicle ttlMs) (R := Relies ttlMs) (G := Does ttlMs)
    ?_ ?_ (fun o s t hs hg => hg.chronicle hs) (fun c o _ _ _ => code_holds o c.st) ?_ hfirst ?_
    h).1
  · intro o s hs
    cases o with
    | tick ms => trivial
    | call id method => exact ⟨le_rfl, hs, fun e he _ => he⟩
  · intro o s t u hst htu
    cases o with
    | tick ms => trivial
    | call id method =>
      exact ⟨hst.1.trans htu.1, htu.2.1, fun e he hid => hst.2.2 e (htu.2.2 e he hid) hid⟩
  · -- the calls of one replica do not overlap, so the others are not by the one that moves
    intro c i o f k hr hI _ _ hi hg j th hji hj hfin
    have hapart : c.Apart LockOp.caller := hr.apart (fun c o id hok => hok id) h₀
    refine hg.tolerated hI fun id hid hid' => hji ?_
    exact hapart j i th _ id hj hi hfin rfl hid' hid
  · intro th hth
    rw [h₀] at hth
    cases hth

/-- **The lease law.** From the statement in which a replica writes its lease, counted from the
reading `t`, until it releases it, no statement of another replica changes the row and no
query of another sees its own id while the clock is at most `t + ttlMs`. A heartbeat or
release by a replica that is not in the row never changes it. -/
theorem lease_law (ttlMs : String → ℚ) {c₀ c : Config World LockOp Unit}
    (h₀ : c₀.threads = []) (hempty : c₀.st.journal = [])
    (h : Run (code ttlMs) OneCallEach c₀ c) :
    (∀ (pre mid post : List Entry) (e e' : Entry) (t : ℤ),
      c.st.journal = pre ++ e :: (mid ++ e' :: post) → e.Wrote ttlMs t →
      (∀ r ∈ mid, r.id = e.id → r.stmt ≠ .remove) → e'.id ≠ e.id →
      (e'.clock : ℚ) ≤ t + ttlMs e.id →
      e'.after = e'.before ∧
        (e'.stmt = .readBack → ∀ cur, e'.before = some cur → cur.leaderId ≠ some e'.id)) ∧
    ∀ e ∈ c.st.journal, (e.stmt = .remove ∨ ∃ now, e.stmt = .extend now) →
      (∀ cur, e.before = some cur → cur.leaderId ≠ some e.id) → e.after = e.before := by
  have hchron := run_chronicle h₀ hempty h
  refine ⟨?_, ?_⟩
  · intro pre mid post e e' t hj hwrote hkeep hid hclock
    obtain ⟨hsame, x, hrow⟩ := hchron.others hj hwrote hkeep hid hclock
    refine ⟨hsame, fun _ cur hcur hown => hid ?_⟩
    obtain rfl : _ = cur := Option.some.inj (hrow.symm.trans hcur)
    exact (Option.some.inj hown).symm
  · intro e he hstmt hother
    rw [hchron.after_eq e he]
    cases hrow : e.before with
    | none => rcases hstmt with hstmt | ⟨now, hstmt⟩ <;> simp [hstmt, Statement.apply]
    | some cur =>
      have hcur := hother cur hrow
      rcases hstmt with hstmt | ⟨now, hstmt⟩ <;> simp [hstmt, Statement.apply, hcur]

def contested : List (Label LockOp) :=
  [.start (.call "a" .tryAcquire), .step 0, .step 0, .step 0, .start (.tick 30000), .step 1,
    .start (.call "b" .tryAcquire), .step 2, .step 2, .step 2]

theorem contested_oneCallEach :
    AllOk (code fun _ => 30000) OneCallEach ⟨⟨0, none, []⟩, []⟩ contested := by
  refine ⟨fun id _ th hth => (by cases hth), ?_⟩
  rintro c' ⟨⟩
  refine ⟨trivial, ?_⟩
  rintro c' ⟨⟩
  refine ⟨trivial, ?_⟩
  rintro c' ⟨⟩
  refine ⟨trivial, ?_⟩
  rintro c' ⟨⟩
  refine ⟨fun id hid => (by cases hid), ?_⟩
  rintro c' ⟨⟩
  refine ⟨trivial, ?_⟩
  rintro c' ⟨⟩
  refine ⟨?_, fun c' _ => ⟨trivial, fun c' _ => ⟨trivial, fun c' _ =>
    ⟨trivial, fun c' _ => trivial⟩⟩⟩⟩
  -- the call of the first replica is through
  rintro id ⟨⟩ th hth hcaller
  rcases List.mem_cons.mp hth with rfl | hth
  · exact absurd hcaller (by decide)
  · cases List.mem_singleton.mp hth
    cases hcaller

theorem lease_law_last_instant :
    ∃ c, Run (code fun _ => 30000) OneCallEach ⟨⟨0, none, []⟩, []⟩ c ∧ c.st.clock = 30000 ∧
      ∃ e ∈ c.st.journal, e.id = "b" ∧ e.stmt = .insertOrTakeOver 30000 ∧ e.after = e.before := by
  let lease : Option Stored := some ⟨some "a", some 30000⟩
  obtain ⟨c, hexec, hclock, hjournal⟩ : ∃ c : Config World LockOp Unit,
      Config.exec (code fun _ => 30000) ⟨⟨0, none, []⟩, []⟩ contested = some c ∧
      c.st.clock = 30000 ∧ c.st.journal =
        [] ++ ⟨"a", .insertOrTakeOver 0, 0, none, lease⟩ ::
          ([⟨"a", .readBack, 0, lease, lease⟩] ++
            ⟨"b", .insertOrTakeOver 30000, 30000, lease, lease⟩ ::
              [⟨"b", .readBack, 30000, lease, lease⟩]) :=
    ⟨_, rfl, by decide +kernel, by decide +kernel⟩
  have hrun := Run.of_exec .init contested_oneCallEach hexec
  refine ⟨c, hrun, hclock, ⟨"b", .insertOrTakeOver 30000, 30000, lease, lease⟩, ?_, rfl, rfl, ?_⟩
  · rw [hjournal]
    simp
  exact ((lease_law (fun _ => 30000) rfl rfl hrun).1 _ _ _ _ _ 0 hjournal
    ⟨rfl, by decide +kernel⟩ (by simp) (by decide) (by norm_num)).1

end Replicas

end OpenObs.Alerts.Lock
