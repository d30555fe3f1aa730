import OpenObs.Setup.Bootstrap

/-!
# At most one first admin

A call is inside once it has found the marker unset, until its run is settled. If the marker is
written by a call that is alone inside, every later check finds it, so no other call gets further.
-/

namespace OpenObs.Setup

open OpenObs.Foundation

/-! ## Phases -/

def RunPhase.inside : RunPhase → Bool
  | .checking | .settled _ => false
  | _ => true

namespace CallPhase

def inside : CallPhase → Bool
  | .running run => run.inside
  | _ => false

def result : CallPhase → Option (Except BootstrapError BootstrapAdminResult)
  | .running (.settled result) => some result
  | .done result => some result
  | _ => none

def succeeded (phase : CallPhase) : Bool :=
  match phase.result with
  | some (.ok _) => true
  | _ => false

def Past (phase : CallPhase) : Prop := phase.inside = true ∨ phase.succeeded = true

def marked : CallPhase → Bool
  | .running (.creatingSession _) => true
  | phase => phase.succeeded

def early : CallPhase → Bool
  | .awaiting _ | .rechecking | .proceeding | .running .checking => true
  | _ => false

def beforeUser : CallPhase → Bool
  | .running (.findingOrg _) | .running (.creatingOrg _) | .running (.creatingUser _) => true
  | phase => phase.early

theorem marked_of_succeeded {a : CallPhase} (h : a.succeeded = true) : a.marked = true := by
  unfold marked
  split
  · rfl
  · exact h

theorem of_early {a : CallPhase} (h : a.early = true) :
    a.inside = false ∧ a.marked = false ∧ a.result = none := by
  unfold early at h
  split at h
  all_goals first | exact ⟨rfl, rfl, rfl⟩ | cases h

end CallPhase

structure Advances (db : BootstrapDb) (a : CallPhase) (db' : BootstrapDb) (b : CallPhase) :
    Prop where
  enters : b.Past → a.Past ∨ db.bootstrappedAt = none
  stays : db.bootstrappedAt ≠ none → db'.bootstrappedAt ≠ none
  marks : db.bootstrappedAt = none → db'.bootstrappedAt ≠ none →
    ∃ userId, a = .running (.settingMarker userId)
  marked : b.marked = true → a.marked = true ∨ db'.bootstrappedAt ≠ none
  issues : (db'.sessions = db.sessions ∧ (b.succeeded = true → a.succeeded = true)) ∨
    ((∃ userId, a = .running (.creatingSession userId)) ∧ b.succeeded = true ∧
      db'.sessions.length = db.sessions.length + 1)
  refused : db.bootstrappedAt ≠ none → a.early = true →
    b.early = true ∨ b.result = some (.error alreadyExists)
  settled : ∀ r, a.result = some r → b.result = some r

variable {deps : SetupBootstrapServiceDeps} {db db' : BootstrapDb} {a : CallPhase}

theorem Advances.of_same {b : CallPhase} (hmarker : db'.bootstrappedAt = db.bootstrappedAt)
    (hsessions : db'.sessions = db.sessions)
    (henters : b.Past → a.Past ∨ db.bootstrappedAt = none)
    (hmarked : b.marked = true → a.marked = true ∨ db.bootstrappedAt ≠ none)
    (hsucceeded : b.succeeded = true → a.succeeded = true)
    (hrefused : db.bootstrappedAt ≠ none → a.early = true →
      b.early = true ∨ b.result = some (.error alreadyExists))
    (hsettled : ∀ r, a.result = some r → b.result = some r) : Advances db a db' b where
  enters := henters
  stays := hmarker.symm ▸ id
  marks hnone hset := absurd (hmarker.trans hnone) hset
  marked := hmarker.symm ▸ hmarked
  issues := Or.inl ⟨hsessions, hsucceeded⟩
  refused := hrefused
  settled := hsettled

theorem createOrg_same {org : OrgRow} (h : db.createOrg org = .ok db') :
    db'.bootstrappedAt = db.bootstrappedAt ∧ db'.sessions = db.sessions := by
  unfold BootstrapDb.createOrg at h
  split at h
  · cases h
  · cases h
    exact ⟨rfl, rfl⟩

theorem createUser_same {user : UserRow} (h : db.createUser user = .ok db') :
    db'.bootstrappedAt = db.bootstrappedAt ∧ db'.sessions = db.sessions := by
  unfold BootstrapDb.createUser at h
  split at h
  · cases h
  · split at h
    · cases h
    · cases h
      exact ⟨rfl, rfl⟩

theorem createOrgUser_same {member : Rbac.OrgUser} (h : db.createOrgUser member = .ok db') :
    db'.bootstrappedAt = db.bootstrappedAt ∧ db'.sessions = db.sessions := by
  unfold BootstrapDb.createOrgUser at h
  split at h
  · cases h
  · split at h
    · cases h
    · cases h
      exact ⟨rfl, rfl⟩

theorem createSession_adds {row : Auth.UserAuthToken} (h : db.createSession row = .ok db') :
    db'.bootstrappedAt = db.bootstrappedAt ∧ db'.sessions.length = db.sessions.length + 1 := by
  unfold BootstrapDb.createSession at h
  split at h
  · cases h
  · cases hcreate : Auth.Table.create db.sessions row with
    | error e =>
      rw [hcreate] at h
      cases h
    | ok created =>
      rw [hcreate] at h
      cases h
      unfold Auth.Table.create at hcreate
      split at hcreate
      · cases hcreate
      · split at hcreate
        · cases hcreate
          exact ⟨rfl, by simp⟩
        · cases hcreate

theorem Advances.of_write {run next : RunPhase} {written : Except String BootstrapDb}
    (hinside : run.inside = true) (hnext : (CallPhase.running next).marked = false)
    (hsame : ∀ db', written = .ok db' →
      db'.bootstrappedAt = db.bootstrappedAt ∧ db'.sessions = db.sessions) :
    Advances db (.running run) (afterWrite db next written).2
      (.running (afterWrite db next written).1) := by
  have hearly : (CallPhase.running run).early = false := by
    cases run <;> simp_all [RunPhase.inside, CallPhase.early]
  have hresult : (CallPhase.running run).result = none := by
    cases run <;> simp_all [RunPhase.inside, CallPhase.result]
  cases written with
  | ok db' =>
    obtain ⟨hmarker, hsessions⟩ := hsame db' rfl
    refine .of_same hmarker hsessions (fun _ => Or.inl (Or.inl hinside)) ?_ ?_ ?_ ?_
    · intro h
      exact absurd (hnext.symm.trans h) Bool.false_ne_true
    · intro h
      exact absurd (hnext.symm.trans (CallPhase.marked_of_succeeded h)) Bool.false_ne_true
    · intro _ h
      exact absurd (hearly.symm.trans h) Bool.false_ne_true
    · intro r h
      cases hresult.symm.trans h
  | error e =>
    refine .of_same rfl rfl (fun _ => Or.inl (Or.inl hinside)) ?_ ?_ ?_ ?_
    · intro h
      cases h
    · intro h
      cases h
    · intro _ h
      exact absurd (hearly.symm.trans h) Bool.false_ne_true
    · intro r h
      cases hresult.symm.trans h

theorem run_advances {input : BootstrapAdminInput} {drawn : Drawn} (run : RunPhase) :
    Advances db (.running run) (runCreateFirstAdmin deps input drawn db run).2
      (.running (runCreateFirstAdmin deps input drawn db run).1) := by
  cases run with
  | checking =>
    simp only [runCreateFirstAdmin]
    split
    · refine .of_same rfl rfl ?_ ?_ ?_ ?_ ?_ <;>
        simp [CallPhase.Past, CallPhase.inside, CallPhase.succeeded, CallPhase.result, RunPhase.inside,
          CallPhase.marked]
    · rename_i hnone
      split
      · refine .of_same rfl rfl ?_ ?_ ?_ ?_ ?_ <;>
          simp [CallPhase.Past, CallPhase.inside, CallPhase.succeeded, CallPhase.result, RunPhase.inside,
            CallPhase.marked, hnone]
      · refine .of_same rfl rfl ?_ ?_ ?_ ?_ ?_ <;>
          simp [CallPhase.succeeded, CallPhase.result, CallPhase.marked, hnone]
  | findingOrg admin =>
    simp only [runCreateFirstAdmin]
    split <;> refine .of_same rfl rfl ?_ ?_ ?_ ?_ ?_ <;>
      simp [CallPhase.Past, CallPhase.inside, CallPhase.succeeded, CallPhase.result, RunPhase.inside,
        CallPhase.marked, CallPhase.early]
  | creatingOrg admin => exact .of_write rfl rfl fun _ => createOrg_same
  | creatingUser admin => exact .of_write rfl rfl fun _ => createUser_same
  | creatingOrgUser userId => exact .of_write rfl rfl fun _ => createOrgUser_same
  | gettingMarker userId =>
    simp only [runCreateFirstAdmin]
    split
    · rename_i existing hsome
      split <;> refine .of_same rfl rfl ?_ ?_ ?_ ?_ ?_ <;>
        simp [CallPhase.Past, CallPhase.inside, CallPhase.succeeded, CallPhase.result, RunPhase.inside,
          CallPhase.marked, CallPhase.early, hsome]
    · refine .of_same rfl rfl ?_ ?_ ?_ ?_ ?_ <;>
        simp [CallPhase.Past, CallPhase.inside, CallPhase.succeeded, CallPhase.result, RunPhase.inside,
          CallPhase.marked, CallPhase.early]
  | settingMarker userId =>
    refine ⟨fun _ => Or.inl (Or.inl rfl), fun _ => Option.some_ne_none _,
      fun _ _ => ⟨userId, rfl⟩, fun _ => Or.inr (Option.some_ne_none _), Or.inl ⟨rfl, ?_⟩, ?_, ?_⟩
      <;> simp [runCreateFirstAdmin, CallPhase.succeeded, CallPhase.result, CallPhase.early]
  | creatingSession userId =>
    simp only [runCreateFirstAdmin]
    generalize hwritten : db.createSession _ = written
    cases written with
    | error e =>
      refine .of_same rfl rfl ?_ ?_ ?_ ?_ ?_ <;>
        simp [afterWrite, CallPhase.Past, CallPhase.inside, CallPhase.succeeded, CallPhase.result,
          RunPhase.inside, CallPhase.marked, CallPhase.early]
    | ok db' =>
      obtain ⟨hmarker, hsessions⟩ := createSession_adds hwritten
      refine ⟨fun _ => Or.inl (Or.inl rfl), hmarker.symm ▸ id,
        fun hnone hset => absurd (hmarker.trans hnone) hset, fun _ => Or.inl rfl,
        Or.inr ⟨⟨userId, rfl⟩, rfl, hsessions⟩, ?_, ?_⟩ <;>
        simp [CallPhase.early, CallPhase.result]
  | settled result =>
    exact .of_same rfl rfl (fun h => Or.inl h) (fun h => Or.inl h) id (fun _ h => Or.inl h)
      fun _ h => h

/-! ## Steps -/

variable {w w' : BootstrapWorld} {i : ℕ} {input : BootstrapAdminInput} {drawn : Drawn}

theorem resume_advances (h : w.resume deps i input drawn a = some w') :
    ∃ b, w'.calls = w.calls.set i ⟨input, b⟩ ∧ Advances w.db a w'.db b := by
  have hquiet : ∀ {b : CallPhase}, a.early = true → b.early = true → Advances w.db a w.db b := by
    intro b ha hb
    obtain ⟨hinside, hmarked, hresult⟩ := CallPhase.of_early hb
    refine .of_same rfl rfl ?_ ?_ ?_ (fun _ _ => Or.inl hb) ?_
    · simp [CallPhase.Past, hinside, CallPhase.succeeded, hresult]
    · simp [hmarked]
    · simp [CallPhase.succeeded, hresult]
    · simp [(CallPhase.of_early ha).2.2]
  cases a with
  | awaiting k =>
    simp only [BootstrapWorld.resume] at h
    split at h
    · cases h
      exact ⟨_, rfl, hquiet rfl rfl⟩
    · cases h
  | rechecking =>
    simp only [BootstrapWorld.resume] at h
    split at h
    · cases h
      refine ⟨_, rfl, .of_same rfl rfl ?_ ?_ ?_ ?_ ?_⟩ <;>
        simp [CallPhase.Past, CallPhase.inside, CallPhase.succeeded, CallPhase.result, CallPhase.marked]
    · cases h
      exact ⟨_, rfl, hquiet rfl rfl⟩
  | proceeding =>
    cases h
    exact ⟨_, rfl, hquiet rfl rfl⟩
  | running run =>
    cases run with
    | settled result =>
      cases h
      exact ⟨_, rfl, .of_same rfl rfl (fun h => Or.inl h) (fun h => Or.inl h) id
        (fun _ h => Or.inl h) fun _ h => h⟩
    | _ =>
      cases h
      exact ⟨_, rfl, @run_advances deps w.db input drawn _⟩
  | done result => cases h

theorem next_cases {l : BootstrapLabel} (h : w.next deps l = some w') :
    (∃ input b, CallPhase.early b = true ∧ w'.db = w.db ∧ w'.calls = w.calls ++ [⟨input, b⟩]) ∨
    ∃ i drawn input a b, l = .step i drawn ∧ w.calls[i]? = some ⟨input, a⟩ ∧
      w'.calls = w.calls.set i ⟨input, b⟩ ∧ Advances w.db a w'.db b := by
  cases l with
  | createFirstAdmin input =>
    cases h
    unfold BootstrapWorld.call
    split
    · exact Or.inl ⟨input, _, rfl, rfl, rfl⟩
    · exact Or.inl ⟨input, _, rfl, rfl, rfl⟩
  | step i drawn =>
    simp only [BootstrapWorld.next] at h
    split at h
    · rename_i input a hi
      obtain ⟨b, hcalls, hadv⟩ := resume_advances h
      exact Or.inr ⟨i, drawn, input, a, b, rfl, hi, hcalls, hadv⟩
    · cases h

def MarksAlone (w : BootstrapWorld) : BootstrapLabel → Prop
  | .step i _ => ∀ input userId,
      w.calls[i]? = some ⟨input, .running (.settingMarker userId)⟩ →
      ∀ (j : ℕ) (call : BootstrapCall), w.calls[j]? = some call → call.phase.inside = true → j = i
  | _ => True

/-- Where the marker is unset no call is past it, and where it is set at most one call is past its
check; `n` sessions were there before. -/
structure Guarded (n : ℕ) (w : BootstrapWorld) : Prop where
  unmarked : w.db.bootstrappedAt = none →
    ∀ (j : ℕ) (call : BootstrapCall), w.calls[j]? = some call → call.phase.marked = false
  alone : w.db.bootstrappedAt ≠ none →
    ∀ (i j : ℕ) (a b : BootstrapCall), w.calls[i]? = some a → w.calls[j]? = some b →
      a.phase.Past → b.phase.Past → i = j
  issued : w.db.sessions.length ≤ n + 1
  unissued : (∀ (j : ℕ) (call : BootstrapCall), w.calls[j]? = some call →
    call.phase.succeeded = false) → w.db.sessions.length ≤ n

theorem CallPhase.succeeded_iff {a : CallPhase} :
    a.succeeded = true ↔ ∃ r, a.result = some (.ok r) := by
  unfold CallPhase.succeeded
  split
  · rename_i r hr
    exact ⟨fun _ => ⟨r, hr⟩, fun _ => rfl⟩
  · rename_i hne
    exact ⟨fun h => absurd h Bool.false_ne_true, fun ⟨r, hr⟩ => absurd hr (hne r)⟩

theorem CallPhase.not_past_of_early {a : CallPhase} (h : a.early = true) : ¬ a.Past := by
  obtain ⟨hinside, -, hresult⟩ := CallPhase.of_early h
  simp [CallPhase.Past, hinside, CallPhase.succeeded, hresult]

theorem Guarded.added {n : ℕ} (hw : Guarded n w) {input : BootstrapAdminInput} {b : CallPhase}
    (hearly : b.early = true) (hdb : w'.db = w.db) (hcalls : w'.calls = w.calls ++ [⟨input, b⟩]) :
    Guarded n w' := by
  obtain ⟨-, hmarked, -⟩ := CallPhase.of_early hearly
  have hpast := CallPhase.not_past_of_early hearly
  refine ⟨fun hnone j call hj => ?_, fun hset j k c d hj hk hc hd => ?_, hdb ▸ hw.issued,
    fun hnone => ?_⟩
  · rw [hcalls] at hj
    rcases getElem?_append_cases hj with hold | rfl
    · exact hw.unmarked (hdb ▸ hnone) j call hold
    · exact hmarked
  · rw [hcalls] at hj hk
    rcases getElem?_append_cases hj with hold | rfl
    · rcases getElem?_append_cases hk with hold' | rfl
      · exact hw.alone (hdb ▸ hset) j k c d hold hold' hc hd
      · exact absurd hd hpast
    · exact absurd hc hpast
  · rw [hdb]
    refine hw.unissued fun j call hj => hnone j call ?_
    rw [hcalls, List.getElem?_append_left (List.getElem?_eq_some_iff.mp hj).1]
    exact hj

section Advanced

variable {i : ℕ} {input : BootstrapAdminInput} {a b : CallPhase}

theorem unsucceeded_before (hi : w.calls[i]? = some ⟨input, a⟩)
    (hcalls : w'.calls = w.calls.set i ⟨input, b⟩) (hadv : Advances w.db a w'.db b)
    (hnone : ∀ (j : ℕ) (call : BootstrapCall), w'.calls[j]? = some call →
      call.phase.succeeded = false) (j : ℕ) (call : BootstrapCall)
    (hj : w.calls[j]? = some call) : call.phase.succeeded = false := by
  refine Bool.eq_false_iff.mpr fun hsucc => ?_
  by_cases hji : j = i
  · subst hji
    cases hi.symm.trans hj
    obtain ⟨r, hr⟩ := CallPhase.succeeded_iff.mp hsucc
    have hb := hnone j ⟨input, b⟩ (by
      rw [hcalls, List.getElem?_set_self (List.getElem?_eq_some_iff.mp hi).1])
    exact Bool.false_ne_true (hb.symm.trans (CallPhase.succeeded_iff.mpr ⟨r, hadv.settled _ hr⟩))
  · have hj' : w'.calls[j]? = some call := by
      rw [hcalls, List.getElem?_set_ne (Ne.symm hji), hj]
    exact Bool.false_ne_true ((hnone j call hj').symm.trans hsucc)

theorem Guarded.sessions {n : ℕ} (hw : Guarded n w) (hi : w.calls[i]? = some ⟨input, a⟩)
    (hadv : Advances w.db a w'.db b) : w'.db.sessions.length ≤ n + 1 := by
  rcases hadv.issues with ⟨hsame, -⟩ | ⟨⟨userId, rfl⟩, -, hlen⟩
  · rw [hsame]
    exact hw.issued
  · have hset : w.db.bootstrappedAt ≠ none := fun hnone =>
      Bool.false_ne_true (hw.unmarked hnone i _ hi).symm
    -- no other call is past its check, so none has succeeded
    have hnone : ∀ (j : ℕ) (call : BootstrapCall), w.calls[j]? = some call →
        call.phase.succeeded = false := by
      intro j call hj
      refine Bool.eq_false_iff.mpr fun hsucc => ?_
      cases hw.alone hset j i _ _ hj hi (Or.inr hsucc) (Or.inl rfl)
      cases hi.symm.trans hj
      cases hsucc
    rw [hlen]
    exact Nat.succ_le_succ (hw.unissued hnone)

theorem Guarded.one_past {n : ℕ} (hw : Guarded n w) (hi : w.calls[i]? = some ⟨input, a⟩)
    (hcalls : w'.calls = w.calls.set i ⟨input, b⟩) (hadv : Advances w.db a w'.db b)
    {drawn : Drawn} (hok : MarksAlone w (.step i drawn))
    (hset : w'.db.bootstrappedAt ≠ none) {j k : ℕ} {c d : BootstrapCall}
    (hj : w'.calls[j]? = some c) (hk : w'.calls[k]? = some d) (hc : c.phase.Past)
    (hd : d.phase.Past) : j = k := by
  have hold : ∀ (j : ℕ) (call : BootstrapCall), w'.calls[j]? = some call →
      (j = i ∧ call = ⟨input, b⟩) ∨ (j ≠ i ∧ w.calls[j]? = some call) := by
    intro j call hj
    rw [hcalls] at hj
    exact getElem?_set_cases hj
  by_cases hnone : w.db.bootstrappedAt = none
  · -- the step writes the marker, and its call is alone
    obtain ⟨userId, rfl⟩ := hadv.marks hnone hset
    have honly : ∀ (j : ℕ) (call : BootstrapCall), w'.calls[j]? = some call →
        call.phase.Past → j = i := by
      intro j call hj hpast
      rcases hold j call hj with ⟨rfl, -⟩ | ⟨-, hj'⟩
      · rfl
      · rcases hpast with hinside | hsucc
        · exact hok input userId hi j call hj' hinside
        · exact absurd ((hw.unmarked hnone j call hj').symm.trans
            (CallPhase.marked_of_succeeded hsucc)) Bool.false_ne_true
    exact (honly j c hj hc).trans (honly k d hk hd).symm
  · have hpast : ∀ (j : ℕ) (call : BootstrapCall), w'.calls[j]? = some call →
        call.phase.Past → ∃ call', w.calls[j]? = some call' ∧ call'.phase.Past := by
      intro j call hj hpast
      rcases hold j call hj with ⟨rfl, rfl⟩ | ⟨-, hj'⟩
      · exact ⟨_, hi, (hadv.enters hpast).resolve_right hnone⟩
      · exact ⟨call, hj', hpast⟩
    obtain ⟨c', hj', hc'⟩ := hpast j c hj hc
    obtain ⟨d', hk', hd'⟩ := hpast k d hk hd
    exact hw.alone hnone j k c' d' hj' hk' hc' hd'

end Advanced

theorem Guarded.next {n : ℕ} (hw : Guarded n w) {l : BootstrapLabel} (hok : MarksAlone w l)
    (h : w.next deps l = some w') : Guarded n w' := by
  rcases next_cases h with ⟨input, b, hearly, hdb, hcalls⟩ |
    ⟨i, drawn, input, a, b, rfl, hi, hcalls, hadv⟩
  · exact hw.added hearly hdb hcalls
  · refine ⟨fun hnone j call hj => ?_, fun hset j k c d hj hk hc hd => ?_, hw.sessions hi hadv,
      fun hnone => ?_⟩
    · have hnone' : w.db.bootstrappedAt = none := not_not.mp fun hset => hadv.stays hset hnone
      rw [hcalls] at hj
      rcases getElem?_set_cases hj with ⟨-, rfl⟩ | ⟨-, hj'⟩
      · refine Bool.eq_false_iff.mpr fun hb => ?_
        rcases hadv.marked hb with ha | hset
        · exact Bool.false_ne_true ((hw.unmarked hnone' i _ hi).symm.trans ha)
        · exact hset hnone
      · exact hw.unmarked hnone' j call hj'
    · exact hw.one_past hi hcalls hadv hok hset hj hk hc hd
    · rcases hadv.issues with ⟨hsame, -⟩ | ⟨-, hb, -⟩
      · rw [hsame]
        exact hw.unissued (unsucceeded_before hi hcalls hadv hnone)
      · have hi' := hnone i ⟨input, b⟩ (by
          rw [hcalls, List.getElem?_set_self (List.getElem?_eq_some_iff.mp hi).1])
        exact absurd (hi'.symm.trans hb) Bool.false_ne_true

/-! ## After a success -/

def Refused (w : BootstrapWorld) (j : ℕ) : Prop :=
  ∀ call, w.calls[j]? = some call →
    call.phase.early = true ∨ call.phase.result = some (.error alreadyExists)

theorem Refused.next {j : ℕ} {l : BootstrapLabel} (hset : w.db.bootstrappedAt ≠ none)
    (hj : Refused w j) (h : w.next deps l = some w') :
    w'.db.bootstrappedAt ≠ none ∧ Refused w' j := by
  rcases next_cases h with ⟨input, b, hearly, hdb, hcalls⟩ |
    ⟨i, drawn, input, a, b, rfl, hi, hcalls, hadv⟩
  · refine ⟨hdb.symm ▸ hset, fun call hcall => ?_⟩
    rw [hcalls] at hcall
    rcases getElem?_append_cases hcall with hold | rfl
    · exact hj call hold
    · exact Or.inl hearly
  · refine ⟨hadv.stays hset, fun call hcall => ?_⟩
    rw [hcalls] at hcall
    rcases getElem?_set_cases hcall with ⟨rfl, rfl⟩ | ⟨-, hold⟩
    · rcases hj _ hi with hearly | hresult
      · exact hadv.refused hset hearly
      · exact Or.inr (hadv.settled _ hresult)
    · exact hj call hold

theorem CallPhase.early_of_beforeUser (h : a.beforeUser = true) (hpast : ¬ a.Past) :
    a.early = true := by
  unfold CallPhase.beforeUser at h
  split at h
  · exact absurd (Or.inl rfl) hpast
  · exact absurd (Or.inl rfl) hpast
  · exact absurd (Or.inl rfl) hpast
  · exact h

theorem CallPhase.not_beforeUser_of_succeeded (h : a.succeeded = true) : ¬ a.beforeUser = true := by
  intro hbefore
  obtain ⟨r, hr⟩ := CallPhase.succeeded_iff.mp h
  unfold CallPhase.beforeUser at hbefore
  split at hbefore
  · cases hr
  · cases hr
  · cases hr
  · cases (CallPhase.of_early hbefore).2.2.symm.trans hr

def CallPhase.started : CallPhase → Bool
  | .running _ | .done _ => true
  | _ => false

theorem CallPhase.isSettled_of_succeeded (h : a.succeeded = true) : a.isSettled = true := by
  unfold CallPhase.succeeded CallPhase.result at h
  unfold CallPhase.isSettled
  split <;> simp_all

theorem CallPhase.checking_of_started (h : a.started = true) (hsettled : ¬ a.isSettled = true)
    (hpast : ¬ a.Past) : a = .running .checking := by
  cases a with
  | running run =>
    cases run with
    | checking => rfl
    | settled result => exact absurd rfl hsettled
    | _ => exact absurd (Or.inl rfl) hpast
  | done result => exact absurd rfl hsettled
  | _ => cases h

def StartedIn (calls : List BootstrapCall) (k : ℕ) : Prop :=
  ∃ call, calls[k]? = some call ∧ call.phase.started = true

structure Awaited (w : BootstrapWorld) : Prop where
  inflight : ∀ k, w.inflight = some k → StartedIn w.calls k
  awaiting : ∀ (j k : ℕ) (input : BootstrapAdminInput),
    w.calls[j]? = some ⟨input, .awaiting k⟩ → StartedIn w.calls k

theorem Awaited.set (hw : Awaited w) {b : CallPhase} (hi : w.calls[i]? = some ⟨input, a⟩)
    (hcalls : w'.calls = w.calls.set i ⟨input, b⟩)
    (hstarted : a.started = true → b.started = true) (hawake : ∀ k, b ≠ .awaiting k)
    (hinflight : ∀ k, w'.inflight = some k → w.inflight = some k ∨ k = i ∧ b.started = true) :
    Awaited w' := by
  have hself : w'.calls[i]? = some ⟨input, b⟩ := by
    rw [hcalls, List.getElem?_set_self (List.getElem?_eq_some_iff.mp hi).1]
  have hkept : ∀ k, StartedIn w.calls k → StartedIn w'.calls k := by
    rintro k ⟨call, hk, hcall⟩
    by_cases hik : i = k
    · subst hik
      cases hi.symm.trans hk
      exact ⟨_, hself, hstarted hcall⟩
    · exact ⟨call, by rw [hcalls, List.getElem?_set_ne hik, hk], hcall⟩
  refine ⟨fun k hk => ?_, fun j k input' hj => ?_⟩
  · rcases hinflight k hk with hold | ⟨rfl, hb⟩
    · exact hkept k (hw.inflight k hold)
    · exact ⟨_, hself, hb⟩
  · rw [hcalls] at hj
    rcases getElem?_set_cases hj with ⟨-, heq⟩ | ⟨-, hold⟩
    · cases heq
      exact absurd rfl (hawake k)
    · exact hkept k (hw.awaiting j k input' hold)

theorem Awaited.next (hw : Awaited w) {l : BootstrapLabel} (h : w.next deps l = some w') :
    Awaited w' := by
  cases l with
  | createFirstAdmin input =>
    cases h
    have hkept : ∀ {phase : CallPhase} (k : ℕ), StartedIn w.calls k →
        StartedIn (w.calls ++ [⟨input, phase⟩]) k := by
      rintro phase k ⟨call, hk, hcall⟩
      exact ⟨call, (List.getElem?_append_left (List.getElem?_eq_some_iff.mp hk).1).trans hk, hcall⟩
    unfold BootstrapWorld.call
    split
    · rename_i k hinflight
      refine ⟨fun m hm => hkept m (hw.inflight m hm), fun j m input' hj => ?_⟩
      rcases getElem?_append_cases hj with hold | heq
      · exact hkept m (hw.awaiting j m input' hold)
      · cases heq
        exact hkept k (hw.inflight k hinflight)
    · refine ⟨fun m hm => ?_, fun j m input' hj => ?_⟩
      · cases hm
        exact ⟨_, List.getElem?_concat_length, rfl⟩
      · rcases getElem?_append_cases hj with hold | heq
        · exact hkept m (hw.awaiting j m input' hold)
        · cases heq
  | step i drawn =>
    simp only [BootstrapWorld.next] at h
    split at h
    · rename_i input a hi
      cases a with
      | awaiting k =>
        simp only [BootstrapWorld.resume] at h
        split at h
        · cases h
          exact hw.set hi rfl (fun h => h) (fun _ => nofun) fun _ => Or.inl
        · cases h
      | rechecking =>
        simp only [BootstrapWorld.resume] at h
        split at h
        · cases h
          exact hw.set hi rfl (fun _ => rfl) (fun _ => nofun) fun _ => Or.inl
        · cases h
          exact hw.set hi rfl (fun h => h) (fun _ => nofun) fun _ => Or.inl
      | proceeding =>
        cases h
        exact hw.set hi rfl (fun _ => rfl) (fun _ => nofun) fun k hk =>
          Or.inr ⟨(Option.some.inj hk).symm, rfl⟩
      | running run =>
        cases run with
        | settled result =>
          cases h
          refine hw.set hi rfl (fun _ => rfl) (fun _ => nofun) fun k hk => Or.inl ?_
          simp only at hk
          split at hk
          · cases hk
          · exact hk
        | _ =>
          cases h
          exact hw.set hi rfl (fun _ => rfl) (fun _ => nofun) fun _ => Or.inl
      | done result => cases h
    · cases h

def Conflicted (w : BootstrapWorld) (j : ℕ) : Prop :=
  ∃ call, w.calls[j]? = some call ∧ call.phase.result = some (.error alreadyExists)

theorem reaches_resume (hi : w.calls[i]? = some ⟨input, a⟩) (ha : a.early = true)
    (h : w.resume deps i input drawn a = some w') :
    Reaches (BootstrapWorld.next deps) MarksAlone w w' := by
  refine .tail (.step i drawn) .init (fun input' userId hi' => ?_) ?_
  · cases hi.symm.trans hi'
    cases ha
  · simp only [BootstrapWorld.next, hi]
    exact h

section Finish

variable {j : ℕ} {marker : String}

theorem finish_checking (hset : w.db.bootstrappedAt = some marker)
    (hj : w.calls[j]? = some ⟨input, .running .checking⟩) :
    ∃ w', Reaches (BootstrapWorld.next deps) MarksAlone w w' ∧ w'.db = w.db ∧
      w'.calls = w.calls.set j ⟨input, .running (.settled (.error alreadyExists))⟩ := by
  have hstep : w.resume deps j input ⟨"", "", "", "", "", 0⟩ (.running .checking) = some
      { w.move j input (.running (.settled (.error alreadyExists))) with db := w.db } := by
    simp only [BootstrapWorld.resume, runCreateFirstAdmin, hset]
  exact ⟨_, reaches_resume hj rfl hstep, rfl, rfl⟩

theorem finish_rechecking (hset : w.db.bootstrappedAt = some marker)
    (hj : w.calls[j]? = some ⟨input, .rechecking⟩) :
    ∃ w', Reaches (BootstrapWorld.next deps) MarksAlone w w' ∧ Conflicted w' j := by
  have hstep : w.resume deps j input ⟨"", "", "", "", "", 0⟩ .rechecking =
      some (w.move j input (.done (.error alreadyExists))) := by
    simp only [BootstrapWorld.resume, hset]
  have hlen := (List.getElem?_eq_some_iff.mp hj).1
  exact ⟨_, reaches_resume hj rfl hstep, _, List.getElem?_set_self hlen, rfl⟩

theorem finish_awaiting {k : ℕ} (hset : w.db.bootstrappedAt = some marker)
    (hj : w.calls[j]? = some ⟨input, .awaiting k⟩)
    (hk : (w.calls[k]?).any (·.phase.isSettled) = true) :
    ∃ w', Reaches (BootstrapWorld.next deps) MarksAlone w w' ∧ Conflicted w' j := by
  have hstep : w.resume deps j input ⟨"", "", "", "", "", 0⟩ (.awaiting k) =
      some (w.move j input .rechecking) := by
    simp only [BootstrapWorld.resume, hk, if_true]
  have hlen := (List.getElem?_eq_some_iff.mp hj).1
  obtain ⟨w', hreach, hconflict⟩ := @finish_rechecking deps (w.move j input .rechecking) input j
    marker hset (List.getElem?_set_self hlen)
  exact ⟨w', (reaches_resume hj rfl hstep).trans hreach, hconflict⟩

theorem finish {n s : ℕ} {winner : BootstrapCall} (hguard : Guarded n w) (hawait : Awaited w)
    (hs : w.calls[s]? = some winner) (hsucc : winner.phase.succeeded = true)
    (hj : w.calls[j]? = some ⟨input, a⟩) (hearly : a.early = true) :
    ∃ w', Reaches (BootstrapWorld.next deps) MarksAlone w w' ∧ Conflicted w' j := by
  have hne : w.db.bootstrappedAt ≠ none := fun hnone => Bool.false_ne_true
    ((hguard.unmarked hnone s winner hs).symm.trans (CallPhase.marked_of_succeeded hsucc))
  obtain ⟨marker, hset⟩ := Option.ne_none_iff_exists'.mp hne
  have hlen := (List.getElem?_eq_some_iff.mp hj).1
  cases a with
  | awaiting k =>
    obtain ⟨⟨input', b⟩, hk, hstarted⟩ := hawait.awaiting j k input hj
    by_cases hsettled : b.isSettled = true
    · refine finish_awaiting hset hj ?_
      rw [hk]
      exact hsettled
    · -- the run that it awaits is at its check: the one call past it has succeeded
      have hpast : ¬ b.Past := by
        intro hpast
        cases hguard.alone hne k s _ _ hk hs hpast (Or.inr hsucc)
        cases hk.symm.trans hs
        exact hsettled (CallPhase.isSettled_of_succeeded hsucc)
      have hchecking := CallPhase.checking_of_started hstarted hsettled hpast
      subst hchecking
      obtain ⟨w₁, hreach, hdb, hcalls⟩ := @finish_checking deps w input' k marker hset hk
      have hjk : k ≠ j := by
        rintro rfl
        cases hj.symm.trans hk
      have hlen' := (List.getElem?_eq_some_iff.mp hk).1
      have hj' : w₁.calls[j]? = some ⟨input, .awaiting k⟩ := by
        rw [hcalls, List.getElem?_set_ne hjk, hj]
      have hk' : (w₁.calls[k]?).any (·.phase.isSettled) = true := by
        rw [hcalls, List.getElem?_set_self hlen']
        rfl
      obtain ⟨w₂, hreach', hconflict⟩ := @finish_awaiting deps w₁ input j marker k
        (hdb.symm ▸ hset) hj' hk'
      exact ⟨w₂, hreach.trans hreach', hconflict⟩
  | rechecking => exact finish_rechecking hset hj
  | proceeding =>
    have hstep : w.resume deps j input ⟨"", "", "", "", "", 0⟩ .proceeding =
        some { w.move j input (.running .checking) with inflight := some j } := rfl
    obtain ⟨w', hreach, -, hcalls⟩ := @finish_checking deps
      { w.move j input (.running .checking) with inflight := some j } input j marker hset
      (List.getElem?_set_self hlen)
    refine ⟨w', (reaches_resume hj rfl hstep).trans hreach,
      ⟨input, .running (.settled (.error alreadyExists))⟩, ?_, rfl⟩
    rw [hcalls]
    exact List.getElem?_set_self (by simpa [BootstrapWorld.move] using hlen)
  | running run =>
    cases run with
    | checking =>
      obtain ⟨w', hreach, -, hcalls⟩ := @finish_checking deps w input j marker hset hj
      refine ⟨w', hreach, ⟨input, .running (.settled (.error alreadyExists))⟩, ?_, rfl⟩
      rw [hcalls]
      exact List.getElem?_set_self hlen
    | _ => cases hearly
  | done result => cases hearly

end Finish

/-! ## Runs -/

def Succeeded (w : BootstrapWorld) (i : ℕ) : Prop :=
  ∃ call, w.calls[i]? = some call ∧ call.phase.succeeded = true

def BeforeUser (w : BootstrapWorld) (j : ℕ) : Prop :=
  ∀ call, w.calls[j]? = some call → call.phase.beforeUser = true

theorem Succeeded.next {s : ℕ} {l : BootstrapLabel} (hs : Succeeded w s)
    (h : w.next deps l = some w') : Succeeded w' s := by
  obtain ⟨winner, hs, hsucc⟩ := hs
  rcases next_cases h with ⟨input, b, hearly, hdb, hcalls⟩ |
    ⟨i, drawn, input, a, b, rfl, hi, hcalls, hadv⟩
  · refine ⟨winner, ?_, hsucc⟩
    rw [hcalls, List.getElem?_append_left (List.getElem?_eq_some_iff.mp hs).1, hs]
  · by_cases his : i = s
    · subst his
      cases hi.symm.trans hs
      obtain ⟨r, hr⟩ := CallPhase.succeeded_iff.mp hsucc
      refine ⟨⟨input, b⟩, ?_, CallPhase.succeeded_iff.mpr ⟨r, hadv.settled _ hr⟩⟩
      rw [hcalls, List.getElem?_set_self (List.getElem?_eq_some_iff.mp hi).1]
    · exact ⟨winner, by rw [hcalls, List.getElem?_set_ne his, hs], hsucc⟩

/-- From `w` on the call is refused, and can go on until it is. -/
def FailsWithConflict (deps : SetupBootstrapServiceDeps)
    (Ok : BootstrapWorld → BootstrapLabel → Prop) (w : BootstrapWorld) (j : ℕ) : Prop :=
  ∀ w', Reaches (BootstrapWorld.next deps) Ok w w' → Refused w' j ∧
    ∀ call, w'.calls[j]? = some call →
      ∃ w'', Reaches (BootstrapWorld.next deps) Ok w' w'' ∧ Conflicted w'' j

/-- `n` sessions were there before. -/
structure SucceedsOnce (deps : SetupBootstrapServiceDeps)
    (Ok : BootstrapWorld → BootstrapLabel → Prop) (n : ℕ) (w : BootstrapWorld) : Prop where
  once : ∀ i j, Succeeded w i → Succeeded w j → i = j
  sessions : w.db.sessions.length ≤ n + 1
  others : ∀ i, Succeeded w i → ∀ j, BeforeUser w j → FailsWithConflict deps Ok w j

theorem Guarded.succeedsOnce {n : ℕ} (hguard : Guarded n w) (hawait : Awaited w) :
    SucceedsOnce deps MarksAlone n w := by
  have hset : ∀ s, Succeeded w s → w.db.bootstrappedAt ≠ none := by
    rintro s ⟨winner, hs, hsucc⟩ hnone
    exact Bool.false_ne_true
      ((hguard.unmarked hnone s winner hs).symm.trans (CallPhase.marked_of_succeeded hsucc))
  refine ⟨?_, hguard.issued, ?_⟩
  · rintro i j ⟨a, hi, ha⟩ ⟨b, hj, hb⟩
    exact hguard.alone (hset i ⟨a, hi, ha⟩) i j a b hi hj (Or.inr ha) (Or.inr hb)
  · intro s hwinner j hbefore w' hreach
    have hmarker := hset s hwinner
    obtain ⟨winner, hs, hsucc⟩ := hwinner
    have hrefused : Refused w j := by
      intro call hj
      have hcall := hbefore call hj
      refine Or.inl (CallPhase.early_of_beforeUser hcall fun hpast => ?_)
      cases hguard.alone hmarker j s _ _ hj hs hpast (Or.inr hsucc)
      cases hj.symm.trans hs
      exact CallPhase.not_beforeUser_of_succeeded hsucc hcall
    -- what holds on all the way: the marker, the winner, and that the call gets nowhere
    have hon : Guarded n w' ∧ Awaited w' ∧ Succeeded w' s ∧ w'.db.bootstrappedAt ≠ none ∧
        Refused w' j := by
      refine Reaches.invariant (I := fun v => Guarded n v ∧ Awaited v ∧ Succeeded v s ∧
        v.db.bootstrappedAt ≠ none ∧ Refused v j)
        ⟨hguard, hawait, ⟨winner, hs, hsucc⟩, hmarker, hrefused⟩ ?_ hreach
      rintro v l v' ⟨hg, ha, hw, hm, hr⟩ hok hn
      exact ⟨hg.next hok hn, ha.next hn, hw.next hn, hr.next hm hn⟩
    obtain ⟨hguard', hawait', ⟨winner', hs', hsucc'⟩, -, hrefused'⟩ := hon
    refine ⟨hrefused', fun ⟨input, a⟩ hj => ?_⟩
    rcases hrefused' _ hj with hearly | hresult
    · exact finish hguard' hawait' hs' hsucc' hj hearly
    · exact ⟨w', .init, _, hj, hresult⟩

/-- **The first admin.** Where the marker is only ever written by a call that is alone past its
check, at most one call succeeds and one session is issued; from then on a call that has not
created its user is refused with a conflict. -/
theorem first_admin_once (deps : SetupBootstrapServiceDeps) (db : BootstrapDb)
    (hdb : db.bootstrappedAt = none) (w : BootstrapWorld)
    (h : Reaches (BootstrapWorld.next deps) MarksAlone ⟨db, none, []⟩ w) :
    SucceedsOnce deps MarksAlone db.sessions.length w := by
  have hguard : Guarded db.sessions.length ⟨db, none, []⟩ :=
    ⟨fun _ _ _ hj => by simp at hj, fun hset => absurd hdb hset, Nat.le_succ _, fun _ => le_rfl⟩
  have hawait : Awaited ⟨db, none, []⟩ := ⟨fun _ hk => by simp at hk, fun _ _ _ hj => by simp at hj⟩
  exact (h.invariant hguard fun _ _ _ hg hok hn => hg.next hok hn).succeedsOnce
    (h.invariant hawait fun _ _ _ ha _ hn => ha.next hn)

/-! ### Calls of one service -/

def plainDeps : SetupBootstrapServiceDeps where
  defaultOrgId := none
  passwordMinLengthVar := none
  toFiniteNumber := fun _ => none
  showNumber := fun _ => "12"
  hashSessionToken := fun token => "hash of " ++ token

def freshDb : BootstrapDb where
  bootstrappedAt := none
  orgs := [⟨"org_main", "Main Org"⟩]
  users := []
  orgUsers := []
  sessions := []

def inputOf (email : String) : BootstrapAdminInput :=
  { email := some (.str email), name := some (.str "Ada"), login := none,
    password := some (.str "correct horse") }

def drawnBy (user : String) : Drawn :=
  { hashed := "h", userId := user, sessionId := user, token := user, now := "t", nowMs := 0 }

def stepTimes (n i : ℕ) (user : String) : List BootstrapLabel :=
  List.replicate n (.step i (drawnBy user))

theorem step_length (h : w.next deps (.step i drawn) = some w') :
    w'.calls.length = w.calls.length := by
  simp only [BootstrapWorld.next] at h
  split at h
  · obtain ⟨b, hcalls, -⟩ := resume_advances h
    rw [hcalls, List.length_set]
  · cases h

theorem marksAlone_single : ∀ {ls : List BootstrapLabel} {w : BootstrapWorld},
    (∀ l ∈ ls, ∃ drawn, l = .step 0 drawn) → w.calls.length ≤ 1 →
    FollowsOk (BootstrapWorld.next deps) MarksAlone w ls := by
  intro ls
  induction ls with
  | nil => exact fun _ _ => trivial
  | cons l ls ih =>
    intro w hls hlen
    obtain ⟨drawn, rfl⟩ := hls l List.mem_cons_self
    refine ⟨fun input userId _ j call hj _ => ?_, fun w' hn => ih (fun l hl =>
      hls l (List.mem_cons_of_mem _ hl)) ?_⟩
    · have := (List.getElem?_eq_some_iff.mp hj).1
      omega
    · rw [step_length hn]
      exact hlen

/-- A call that nothing disturbs. -/
theorem first_admin_once_alone : ∃ w, Succeeded w 0 ∧ SucceedsOnce plainDeps MarksAlone 0 w := by
  have hsucceeds : ((follow (BootstrapWorld.next plainDeps) ⟨freshDb, none, []⟩
      (.createFirstAdmin (inputOf "ada@example.org") :: stepTimes 7 0 "u")).any fun w =>
      (w.calls[0]?).any (·.phase.succeeded)) = true := by
    decide +kernel
  obtain ⟨w, hw, hsucc⟩ := (Option.any_eq_true _ _).mp hsucceeds
  have hok : FollowsOk (BootstrapWorld.next plainDeps) MarksAlone ⟨freshDb, none, []⟩
      (.createFirstAdmin (inputOf "ada@example.org") :: stepTimes 7 0 "u") := by
    refine ⟨trivial, fun w' hn => marksAlone_single (fun l hl => ?_) ?_⟩
    · exact ⟨_, List.eq_of_mem_replicate hl⟩
    · cases hn
      exact le_rfl
  exact ⟨w, (Option.any_eq_true _ _).mp hsucc,
    first_admin_once plainDeps freshDb rfl w (.of_follow .init hok hw)⟩

/-- The first call fails its validation while two others wait for it. -/
theorem waiting_calls_both_succeed : ¬ ∀ (deps : SetupBootstrapServiceDeps) (db : BootstrapDb),
    db.bootstrappedAt = none → ∀ w,
    Reaches (BootstrapWorld.next deps) (fun _ _ => True) ⟨db, none, []⟩ w →
    SucceedsOnce deps (fun _ _ => True) db.sessions.length w := by
  intro hall
  have hsucceed : ((follow (BootstrapWorld.next plainDeps) ⟨freshDb, none, []⟩
      ([.createFirstAdmin (inputOf "ada"), .createFirstAdmin (inputOf "ada@example.org"),
        .createFirstAdmin (inputOf "bob@example.org"), .step 0 (drawnBy ""),
        .step 0 (drawnBy ""), .step 1 (drawnBy ""), .step 2 (drawnBy ""), .step 1 (drawnBy ""),
        .step 2 (drawnBy ""), .step 1 (drawnBy ""), .step 2 (drawnBy ""), .step 1 (drawnBy ""),
        .step 2 (drawnBy "")] ++ stepTimes 6 1 "u" ++ stepTimes 5 2 "v")).any fun w =>
      (w.calls[1]?).any (·.phase.succeeded) && (w.calls[2]?).any (·.phase.succeeded)) = true := by
    decide +kernel
  obtain ⟨w, hw, hboth⟩ := (Option.any_eq_true _ _).mp hsucceed
  obtain ⟨h₁, h₂⟩ := Bool.and_eq_true_iff.mp hboth
  have honce := hall plainDeps freshDb rfl w
    (.of_follow .init (followsOk_of_forall (fun _ _ => trivial) _ _) hw)
  exact absurd (honce.once 1 2 ((Option.any_eq_true _ _).mp h₁) ((Option.any_eq_true _ _).mp h₂))
    (by decide)

end OpenObs.Setup
