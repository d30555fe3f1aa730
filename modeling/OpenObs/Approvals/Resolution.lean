import OpenObs.Approvals.Store
import OpenObs.Foundation.Pool

/-!
# Concurrent resolutions of one request

`approve` and `reject` test the status in a `SELECT` and store the verdict in an `UPDATE` that does
not test it again.
-/

namespace OpenObs.Approvals

open OpenObs.Foundation OpenObs.Plans Prog

/-- A call of `approve` or `reject`. -/
structure Call where
  verdict : Verdict
  guarded : verdict ≠ .override
  resolvedBy : String
  roles : Option (List String)

/-- The calls of the event-emitting store on the request `id`. -/
def Call.code (id : String) (call : Call) : Prog World (Option ApprovalRequest) :=
  resolution call.verdict id call.resolvedBy call.roles

/-! ## The phases of a call -/

/-- What is left after a `SELECT` that saw the request pending. -/
def Call.armedProg (id : String) (call : Call) : Prog World (Option ApprovalRequest) :=
  announce (resolve id call.verdict.status call.resolvedBy call.roles)

/-- What is left after the `UPDATE`. -/
def notifyingProg (r : ApprovalRequest) : Prog World (Option ApprovalRequest) := do
  notify r
  return some r

abbrev CallThread : Type := Thread World Call (Option ApprovalRequest)

abbrev CallConfig : Type := Config World Call (Option ApprovalRequest)

def Ready (id : String) (th : CallThread) : Prop := th.prog = th.op.code id

def Armed (id : String) (th : CallThread) : Prop := th.prog = th.op.armedProg id

def Committed (id : String) (th : CallThread) : Prop :=
  Armed id th ∨ (∃ r, th.prog = notifyingProg r) ∨ ∃ r, th.prog = .ret (some r)

def OneArmed (id : String) (c : CallConfig) : Prop :=
  ∀ (i j : ℕ) (th th' : CallThread), c.threads[i]? = some th → c.threads[j]? = some th' →
    Armed id th → Armed id th' → i = j

/-- Exactly one call returned a request, its verdict is the one stored, and its
request is the one announcement made since `w`. -/
def ExactlyOnce (id : String) (w : World) (c : CallConfig) : Prop :=
  ∃ (i : ℕ) (call : Call) (r : ApprovalRequest),
    c.threads[i]? = some ⟨call, .ret (some r)⟩ ∧
    (∀ (j : ℕ) (th : CallThread), j ≠ i → c.threads[j]? = some th → th.prog = .ret none) ∧
    (∃ a, c.st.approval id = some a ∧ a.status = call.verdict.status ∧
      a.resolvedBy = some call.resolvedBy) ∧
    c.st.notified = w.notified ++ [r]

theorem Call.code_eq (id : String) (call : Call) :
    call.code id = announce (resolvePending call.verdict.status id call.resolvedBy
      call.roles) := by
  obtain ⟨verdict, hguarded, resolvedBy, roles⟩ := call
  cases verdict with
  | approve => rfl
  | reject => rfl
  | override => exact absurd rfl hguarded

theorem Verdict.status_ne_pending (verdict : Verdict) : verdict.status ≠ .pending := by
  cases verdict <;> decide

/-! ## What a step can do -/

section Sections

variable {id : String} {call : Call} {s : World} {a r : ApprovalRequest}
  {f : World → World} {k : World → Prog World (Option ApprovalRequest)}

theorem section_ready (h : .sect f k = call.code id) (row : s.approval id = some a) :
    f s = s ∧ k s = if a.status = .pending then call.armedProg id else .ret none := by
  have hcode := call.code_eq id
  unfold resolvePending findById at hcode
  rw [announce_bind] at hcode
  have hsect := h.trans hcode
  cases hsect
  refine ⟨rfl, ?_⟩
  show Prog.bind (.ret (s.approval id)) _ = _
  rw [row]
  dsimp only [Prog.bind]
  split <;> rfl

theorem section_armed (h : .sect f k = call.armedProg id) (row : s.approval id = some a) :
    f s = s.resolveApproval id call.verdict.status call.resolvedBy call.roles ∧
      k s = notifyingProg (a.resolve call.verdict.status call.resolvedBy s.now call.roles) := by
  have hsect : (Prog.sect f k : Prog World (Option ApprovalRequest)) =
      .sect (fun t => t.resolveApproval id call.verdict.status call.resolvedBy call.roles)
        fun t => announce (.ret ((t.resolveApproval id call.verdict.status call.resolvedBy
          call.roles).approval id)) := h
  injection hsect with hf hk
  subst hf hk
  refine ⟨rfl, ?_⟩
  dsimp only
  rw [World.approval_resolveApproval row]
  rfl

theorem section_notifying (h : .sect f k = notifyingProg r) :
    f s = { s with notified := s.notified ++ [r] } ∧ k s = .ret (some r) := by
  have hsect : (Prog.sect f k : Prog World (Option ApprovalRequest)) =
      .sect (fun t => { t with notified := t.notified ++ [r] }) fun _ => .ret (some r) := h
  injection hsect with hf hk
  subst hf hk
  exact ⟨rfl, rfl⟩

end Sections

structure Known (id : String) (c : CallConfig) : Prop where
  row : ∃ a, c.st.approval id = some a
  phases : ∀ (i : ℕ) (th : CallThread), c.threads[i]? = some th →
    Ready id th ∨ Committed id th ∨ th.prog = .ret none

/-! ## Every call commits or is refused -/

theorem known_start (id : String) {w : World} {a : ApprovalRequest}
    (ha : w.approval id = some a) : Known id ⟨w, []⟩ :=
  ⟨⟨a, ha⟩, fun i th hth => by simp at hth⟩

theorem committed_section {id : String} {call : Call} {s : World} {a : ApprovalRequest}
    {f : World → World} {k : World → Prog World (Option ApprovalRequest)}
    (row : s.approval id = some a) (hc : Committed id ⟨call, .sect f k⟩) :
    Committed id ⟨call, k s⟩ ∧ ∃ a', (f s).approval id = some a' := by
  rcases hc with harmed | ⟨r, hnot⟩ | ⟨r, hret⟩
  · obtain ⟨hf, hk⟩ := section_armed harmed row
    rw [hf, hk]
    exact ⟨Or.inr (Or.inl ⟨_, rfl⟩), _, World.approval_resolveApproval row⟩
  · obtain ⟨hf, hk⟩ := section_notifying hnot
    rw [hf, hk]
    exact ⟨Or.inr (Or.inr ⟨r, rfl⟩), a, row⟩
  · cases hret

theorem committed_next {id : String} {c c' : CallConfig} {l : Label Call} (h : Known id c)
    (hn : c.next (Call.code id) l = some c') {j : ℕ} {th : CallThread}
    (hj : c.threads[j]? = some th) (hc : Committed id th) :
    ∃ th' : CallThread, c'.threads[j]? = some th' ∧ Committed id th' := by
  cases l with
  | start call => exact ⟨th, (Config.next_start_threads hn).1 j th hj, hc⟩
  | step i =>
    obtain ⟨call, f, k, hi, -, hi', hother⟩ := Config.next_step_threads hn
    obtain ⟨a, row⟩ := h.row
    by_cases hji : j = i
    · subst hji
      cases hi.symm.trans hj
      exact ⟨_, hi', (committed_section row hc).1⟩
    · exact ⟨th, (hother j hji).trans hj, hc⟩

theorem Known.next {id : String} {c c' : CallConfig} {l : Label Call} (h : Known id c)
    (hn : c.next (Call.code id) l = some c') : Known id c' := by
  cases l with
  | start call =>
    refine ⟨?_, fun j th hj => ?_⟩
    · rw [(Config.next_start hn).1]
      exact h.row
    · rcases (Config.next_start_threads hn).2 j th hj with hold | hnew
      · exact h.phases j th hold
      · rw [hnew]
        exact Or.inl rfl
  | step i =>
    obtain ⟨call, f, k, hi, hst, hi', hother⟩ := Config.next_step_threads hn
    obtain ⟨a, row⟩ := h.row
    have hnew : (∃ a', (f c.st).approval id = some a') ∧
        (Committed id ⟨call, k c.st⟩ ∨ k c.st = .ret none) := by
      rcases h.phases i _ hi with hready | hcomm | hnone
      · obtain ⟨hf, hk⟩ := section_ready hready row
        rw [hf, hk]
        refine ⟨⟨a, row⟩, ?_⟩
        split
        · exact Or.inl (Or.inl rfl)
        · exact Or.inr rfl
      · obtain ⟨hcomm', hrow'⟩ := committed_section row hcomm
        exact ⟨hrow', Or.inl hcomm'⟩
      · cases hnone
    rw [← hst] at hnew
    refine ⟨hnew.1, fun j th hj => ?_⟩
    by_cases hji : j = i
    · subst hji
      cases hi'.symm.trans hj
      exact Or.inr hnew.2
    · exact h.phases j th ((hother j hji).symm.trans hj)

/-! ## Two armed calls -/

def TwoCommitted (id : String) (c : CallConfig) : Prop :=
  ∃ (i j : ℕ) (th th' : CallThread), i ≠ j ∧ c.threads[i]? = some th ∧
    c.threads[j]? = some th' ∧ Committed id th ∧ Committed id th'

theorem twoCommitted_of_not_oneArmed {id : String} {c : CallConfig} (h : ¬ OneArmed id c) :
    TwoCommitted id c := by
  simp only [OneArmed, not_forall] at h
  obtain ⟨i, j, th, th', hi, hj, harmed, harmed', hne⟩ := h
  exact ⟨i, j, th, th', hne, hi, hj, Or.inl harmed, Or.inl harmed'⟩

theorem TwoCommitted.next {id : String} {c c' : CallConfig} {l : Label Call} (hk : Known id c)
    (hn : c.next (Call.code id) l = some c') (h : TwoCommitted id c) : TwoCommitted id c' := by
  obtain ⟨i, j, th, th', hne, hi, hj, hc, hc'⟩ := h
  obtain ⟨t, ht, htc⟩ := committed_next hk hn hi hc
  obtain ⟨t', ht', htc'⟩ := committed_next hk hn hj hc'
  exact ⟨i, j, t, t', hne, ht, ht', htc, htc'⟩

theorem twoCommitted_of_not_allOk {id : String} (ls : List (Label Call)) :
    ∀ {c c' : CallConfig}, Known id c → c.exec (Call.code id) ls = some c' →
      ¬ AllOk (Call.code id) (fun c _ => OneArmed id c) c ls → TwoCommitted id c' := by
  induction ls with
  | nil => exact fun _ _ h => absurd trivial h
  | cons l ls ih =>
    intro c c' hk hexec h
    obtain ⟨d, hn, hd⟩ := Option.bind_eq_some_iff.mp hexec
    by_cases hone : OneArmed id c
    · refine ih (hk.next hn) hd fun hall => h ⟨hone, fun d' hd' => ?_⟩
      cases hn.symm.trans hd'
      exact hall
    · -- from here on, whatever the schedule does
      have hkept : Known id c' ∧ TwoCommitted id c' :=
        exec_invariant (I := fun c => Known id c ∧ TwoCommitted id c)
          (fun _ _ _ h _ hn => ⟨h.1.next hn, h.2.next h.1 hn⟩) ls
          ⟨hk.next hn, (twoCommitted_of_not_oneArmed hone).next hk hn⟩
          (allOk_of_forall (fun _ _ => trivial) ls d) hd
      exact hkept.2

theorem committed_finished {id : String} {th : CallThread} (h : Committed id th)
    (hdone : th.prog.finished = true) : th.prog ≠ .ret none := by
  rcases h with harmed | ⟨r, hnot⟩ | ⟨r, hret⟩
  · rw [harmed] at hdone
    cases hdone
  · rw [hnot] at hdone
    cases hdone
  · rw [hret]
    exact fun h => by cases h

/-! ## One call at a time -/

structure Undecided (id : String) (w : World) (c : CallConfig) : Prop where
  row : ∃ a, c.st.approval id = some a ∧ a.status = .pending
  notified : c.st.notified = w.notified
  phases : ∀ (j : ℕ) (th : CallThread), c.threads[j]? = some th → Ready id th ∨ Armed id th

/-- Call `i` stored its verdict; every other one found it or will. -/
structure DecidedBy (id : String) (w : World) (i : ℕ) (call : Call) (c : CallConfig) :
    Prop where
  row : ∃ a, c.st.approval id = some a ∧ a.status = call.verdict.status ∧
    a.resolvedBy = some call.resolvedBy
  winner : ∃ r, (c.threads[i]? = some ⟨call, notifyingProg r⟩ ∧
      c.st.notified = w.notified) ∨
    (c.threads[i]? = some ⟨call, .ret (some r)⟩ ∧ c.st.notified = w.notified ++ [r])
  others : ∀ (j : ℕ) (th : CallThread), j ≠ i → c.threads[j]? = some th →
    Ready id th ∨ th.prog = .ret none

theorem Undecided.next {id : String} {w : World} {c c' : CallConfig} {l : Label Call}
    (h : Undecided id w c) (hone : OneArmed id c)
    (hn : c.next (Call.code id) l = some c') :
    Undecided id w c' ∨ ∃ i call, DecidedBy id w i call c' := by
  cases l with
  | start call =>
    have hst := (Config.next_start hn).1
    refine Or.inl ⟨by rw [hst]; exact h.row, by rw [hst]; exact h.notified, fun j th hj => ?_⟩
    rcases (Config.next_start_threads hn).2 j th hj with hold | hnew
    · exact h.phases j th hold
    · rw [hnew]
      exact Or.inl rfl
  | step i =>
    obtain ⟨call, f, k, hi, hst, hi', hother⟩ := Config.next_step_threads hn
    obtain ⟨a, row, hpending⟩ := h.row
    rcases h.phases i _ hi with hready | harmed
    · left
      obtain ⟨hf, hk⟩ := section_ready hready row
      rw [if_pos hpending] at hk
      rw [hf] at hst
      refine ⟨by rw [hst]; exact h.row, by rw [hst]; exact h.notified, fun j th hj => ?_⟩
      by_cases hji : j = i
      · subst hji
        cases hi'.symm.trans hj
        exact Or.inr hk
      · exact h.phases j th ((hother j hji).symm.trans hj)
    · right
      obtain ⟨hf, hk⟩ := section_armed harmed row
      rw [hf] at hst
      rw [hk] at hi'
      refine ⟨i, call, ⟨a.resolve call.verdict.status call.resolvedBy c.st.now call.roles, ?_,
        rfl, rfl⟩, ⟨_, Or.inl ⟨hi', ?_⟩⟩, fun j th hji hj => ?_⟩
      · rw [hst]
        exact World.approval_resolveApproval row
      · rw [hst]
        exact h.notified
      · rw [hother j hji] at hj
        -- nobody else is armed, so every other call has yet to read
        rcases h.phases j th hj with hready | harmed'
        · exact Or.inl hready
        · exact absurd (hone j i _ _ hj hi harmed' harmed) hji

theorem DecidedBy.next {id : String} {w : World} {i : ℕ} {call : Call} {c c' : CallConfig}
    {l : Label Call} (h : DecidedBy id w i call c)
    (hn : c.next (Call.code id) l = some c') : DecidedBy id w i call c' := by
  obtain ⟨r, hwinner⟩ := h.winner
  cases l with
  | start other =>
    have hst := (Config.next_start hn).1
    obtain ⟨hkeep, hnew⟩ := Config.next_start_threads hn
    refine ⟨by rw [hst]; exact h.row, ⟨r, ?_⟩, fun j th hji hj => ?_⟩
    · rw [hst]
      rcases hwinner with ⟨hi, hnot⟩ | ⟨hi, hnot⟩
      · exact Or.inl ⟨hkeep i _ hi, hnot⟩
      · exact Or.inr ⟨hkeep i _ hi, hnot⟩
    · rcases hnew j th hj with hold | hth
      · exact h.others j th hji hold
      · rw [hth]
        exact Or.inl rfl
  | step m =>
    obtain ⟨other, f, k, hm, hst, hm', hother⟩ := Config.next_step_threads hn
    obtain ⟨a, row, hstatus, hby⟩ := h.row
    by_cases hmi : m = i
    · subst hmi
      rcases hwinner with ⟨hi, hnot⟩ | ⟨hi, hnot⟩
      · obtain ⟨hop, hprog⟩ := Thread.mk.inj (Option.some.inj (hm.symm.trans hi))
        subst hop
        obtain ⟨hf, hk⟩ := section_notifying hprog
        rw [hf] at hst
        rw [hk] at hm'
        refine ⟨⟨a, by rw [hst]; exact row, hstatus, hby⟩, ⟨r, Or.inr ⟨hm', ?_⟩⟩,
          fun j th hji hj => h.others j th hji ((hother j hji).symm.trans hj)⟩
        rw [hst, ← hnot]
      · cases hm.symm.trans hi
    · have hidle : f c.st = c.st ∧ k c.st = .ret none := by
        rcases h.others m _ hmi hm with hready | hnone
        · obtain ⟨hf, hk⟩ := section_ready hready row
          rw [if_neg (hstatus ▸ call.verdict.status_ne_pending)] at hk
          exact ⟨hf, hk⟩
        · cases hnone
      rw [hidle.1] at hst
      rw [hidle.2] at hm'
      refine ⟨⟨a, by rw [hst]; exact row, hstatus, hby⟩, ⟨r, ?_⟩, fun j th hji hj => ?_⟩
      · rw [hst, hother i (Ne.symm hmi)]
        exact hwinner
      · by_cases hjm : j = m
        · subst hjm
          cases hm'.symm.trans hj
          exact Or.inr rfl
        · exact h.others j th hji ((hother j hjm).symm.trans hj)

theorem DecidedBy.exactlyOnce {id : String} {w : World} {i : ℕ} {call : Call} {c : CallConfig}
    (h : DecidedBy id w i call c) (hdone : ∀ th ∈ c.threads, th.prog.finished = true) :
    ExactlyOnce id w c := by
  obtain ⟨r, ⟨hi, -⟩ | ⟨hi, hnot⟩⟩ := h.winner
  · have := hdone _ (List.mem_of_getElem? hi)
    cases this
  · refine ⟨i, call, r, hi, fun j th hji hj => ?_, h.row, hnot⟩
    rcases h.others j th hji hj with hready | hnone
    · have hfin := hdone th (List.mem_of_getElem? hj)
      rw [hready, Call.code_eq] at hfin
      cases hfin
    · exact hnone

/-- **Exactly once.** For every finished schedule of at least one call on a pending
request: exactly one call returns a request, its verdict is the one stored and its
request the only one announced, if and only if no two calls were armed at once. -/
theorem exactly_once_iff (id : String) (w : World) (a : ApprovalRequest)
    (ha : w.approval id = some a) (hpending : a.status = .pending)
    (ls : List (Label Call)) (c : CallConfig)
    (hexec : Config.exec (Call.code id) ⟨w, []⟩ ls = some c)
    (hdone : ∀ th ∈ c.threads, th.prog.finished = true) (hcalls : c.threads ≠ []) :
    ExactlyOnce id w c ↔ AllOk (Call.code id) (fun c _ => OneArmed id c) ⟨w, []⟩ ls := by
  constructor
  · rintro ⟨i, call, r, hi, hothers, -, -⟩
    by_contra hnot
    obtain ⟨j, j', th, th', hne, hj, hj', hc, hc'⟩ :=
      twoCommitted_of_not_allOk ls (known_start id ha) hexec hnot
    -- one of the two is not the call that returned
    by_cases hji : j = i
    · exact committed_finished hc' (hdone th' (List.mem_of_getElem? hj'))
        (hothers j' th' (fun h => hne (hji.trans h.symm)) hj')
    · exact committed_finished hc (hdone th (List.mem_of_getElem? hj)) (hothers j th hji hj)
  · intro hok
    have hstart : Undecided id w ⟨w, []⟩ :=
      ⟨⟨a, ha, hpending⟩, rfl, fun j th hj => by simp at hj⟩
    have hkept : Undecided id w c ∨ ∃ i call, DecidedBy id w i call c := by
      refine exec_invariant (I := fun c => Undecided id w c ∨ ∃ i call, DecidedBy id w i call c)
        ?_ ls (Or.inl hstart) hok hexec
      rintro c l c' (hu | ⟨i, call, hdec⟩) hone hn
      · exact hu.next hone hn
      · exact Or.inr ⟨i, call, hdec.next hn⟩
    rcases hkept with hu | ⟨i, call, hdec⟩
    · -- some call is there, and it has not finished
      exfalso
      obtain ⟨th, hth⟩ := List.exists_mem_of_ne_nil _ hcalls
      obtain ⟨j, hj⟩ := List.mem_iff_getElem?.mp hth
      have hfin := hdone th hth
      rcases hu.phases j th hj with hready | harmed
      · rw [hready, Call.code_eq] at hfin
        cases hfin
      · rw [harmed] at hfin
        cases hfin
    · exact hdec.exactlyOnce hdone

theorem allOk_single {id : String} (n : ℕ) : ∀ {c : CallConfig}, c.threads.length = 1 →
    AllOk (Call.code id) (fun c _ => OneArmed id c) c (List.replicate n (.step 0)) := by
  induction n with
  | zero => exact fun _ => trivial
  | succ n ih =>
    intro c hone
    refine ⟨fun i j th th' hi hj _ _ => ?_, fun c' hn => ih ?_⟩
    · have hi' := (List.getElem?_eq_some_iff.mp hi).1
      have hj' := (List.getElem?_eq_some_iff.mp hj).1
      omega
    · obtain ⟨_, _, _, -, -, hthreads⟩ := Config.next_step hn
      rw [hthreads, List.length_set, hone]

def requestWorld : World where
  plans := []
  approvals := [{
    id := "req-0"
    orgId := "org_main"
    action := { type := "ops.run_command", targetService := "k8s-prod", params := [] }
    context := ⟨none, "agent", "scale web", none, none⟩
    status := .pending
    expiresAt := ""
    createdAt := ""
    resolvedAt := none
    resolvedBy := none
    resolvedByRoles := none
    opsConnectorId := none
    targetNamespace := none
    requesterTeamId := none }]
  calls := []
  notified := []
  now := ""

theorem pending_requestWorld : ∃ a, requestWorld.approval "req-0" = some a ∧
    a.status = .pending := by
  have h : (requestWorld.approval "req-0").any (·.status = .pending) = true := by decide
  obtain ⟨a, ha, hst⟩ := (Option.any_eq_true _ _).mp h
  exact ⟨a, ha, of_decide_eq_true hst⟩

def approveCall : Call := ⟨.approve, by decide, "ann", none⟩

def rejectCall : Call := ⟨.reject, by decide, "bob", none⟩

/-- One call alone: `SELECT`, `UPDATE`, announcement. -/
theorem exactly_once_alone :
    ∃ c, Config.exec (Call.code "req-0") ⟨requestWorld, []⟩
        (.start approveCall :: List.replicate 3 (.step 0)) = some c ∧
      ExactlyOnce "req-0" requestWorld c := by
  have hexec : (Config.exec (Call.code "req-0") ⟨requestWorld, []⟩
      (.start approveCall :: List.replicate 3 (.step 0))).any (fun c =>
        c.threads.length = 1 ∧ c.threads.all (·.prog.finished)) = true := by
    decide +kernel
  obtain ⟨c, hc, hcond⟩ := (Option.any_eq_true _ _).mp hexec
  obtain ⟨hlen, hfin⟩ := of_decide_eq_true hcond
  obtain ⟨a, ha, hpending⟩ := pending_requestWorld
  refine ⟨c, hc, (exactly_once_iff "req-0" requestWorld a ha hpending _ c hc
    (by simpa using hfin) (by rintro h; simp [h] at hlen)).mpr ⟨?_, fun c' hn => ?_⟩⟩
  · intro i j th th' hi
    simp at hi
  · refine allOk_single 3 ?_
    rw [(Config.next_start hn).2]
    rfl

/-- **Two calls resolve one request.** Both read it pending, then both store their
verdict and both are announced. -/
theorem two_calls_resolve :
    ¬ ∀ (id : String) (w : World) (a : ApprovalRequest), w.approval id = some a →
      a.status = .pending → ∀ (ls : List (Label Call)) (c : CallConfig),
      Config.exec (Call.code id) ⟨w, []⟩ ls = some c →
      (∀ th ∈ c.threads, th.prog.finished = true) → c.threads ≠ [] →
      ExactlyOnce id w c := by
  intro h
  have hexec : (Config.exec (Call.code "req-0") ⟨requestWorld, []⟩
      [.start approveCall, .start rejectCall, .step 0, .step 1, .step 0, .step 1, .step 0,
        .step 1]).any (fun c => c.threads.length = 2 ∧
          c.threads.all (·.prog.finished) ∧ c.st.notified.length = 2) = true := by
    decide +kernel
  obtain ⟨c, hc, hcond⟩ := (Option.any_eq_true _ _).mp hexec
  obtain ⟨hlen, hfin, hnotified⟩ := of_decide_eq_true hcond
  obtain ⟨a, ha, hpending⟩ := pending_requestWorld
  obtain ⟨i, call, r, -, -, -, hone⟩ := h "req-0" requestWorld a ha hpending _ c hc
    (by simpa using hfin) (by rintro hnil; simp [hnil] at hlen)
  rw [hone] at hnotified
  simp [requestWorld] at hnotified

end OpenObs.Approvals
