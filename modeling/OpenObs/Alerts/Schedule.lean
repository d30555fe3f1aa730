import OpenObs.Alerts.Traces

/-!
# The schedule of the evaluator

`start`, `stop`, `tickLeader`, `notifyRuleChanged` and `refreshSchedule` of
`services/alert-evaluator-service.ts`, with the callbacks of their timers.
-/

namespace OpenObs.Alerts

open OpenObs.Foundation OpenObs.Resources OpenObs.Rules

/-! ## The service -/

/-- An interval in milliseconds (`none` is `NaN`). -/
abbrev Interval := Option ℚ

structure Scheduler where
  running : Bool := false
  isLeader : Bool := false
  leaderTimer : Bool := false
  refreshTimer : Bool := false
  debounceTimer : Bool := false
  timers : List (String × Interval) := []
  scheduleFingerprints : List (String × Interval × String) := []

/-- `Map.set`: an entry keeps its place. -/
def mapSet {β : Type} (key : String) (value : β) (entries : List (String × β)) :
    List (String × β) :=
  if key ∈ entries.map (·.1) then
    entries.map fun entry => if entry.1 = key then (key, value) else entry
  else entries ++ [(key, value)]

structure Answers where
  heartbeat : Except String Bool := .ok true
  tryAcquire : Except String Bool := .ok false
  findAll : Except String (List AlertRule) := .ok []

namespace AlertEvaluatorService

variable (p : Platform) (leaderLock : Bool) (answers : Answers)

/-- `(rule.evaluationIntervalSec || 60) * 1000`. -/
def intervalMs (rule : AlertRule) : Interval :=
  (p.toNumber (some (if truthyJson (some rule.evaluationIntervalSec) then
    rule.evaluationIntervalSec else .num 60))).map (· * 1000)

def scheduleFingerprint (rule : AlertRule) (intervalMs : Interval) : Interval × String :=
  (intervalMs, rule.state)

def scheduleRule (s : Scheduler) (rule : AlertRule) : Scheduler :=
  if rule.state = "disabled" then s
  else
    let fingerprint := scheduleFingerprint rule (intervalMs p rule)
    if rule.id ∈ s.timers.map (·.1) ∧ s.scheduleFingerprints.lookup rule.id = some fingerprint then s
    else { s with
      timers := mapSet rule.id (intervalMs p rule) s.timers
      scheduleFingerprints := mapSet rule.id fingerprint s.scheduleFingerprints }

def seen (rules : List AlertRule) : List String :=
  (rules.filter (·.state ≠ "disabled")).map (·.id)

/-- The second section of `refreshSchedule`: new timers, and the old ones are dropped. -/
def install (rules : List AlertRule) (s : Scheduler) : Scheduler :=
  let scheduled := rules.foldl (scheduleRule p) s
  let dropped := (scheduled.timers.map (·.1)).filter (· ∉ seen rules)
  { scheduled with
    timers := scheduled.timers.filter (·.1 ∉ dropped)
    scheduleFingerprints := scheduled.scheduleFingerprints.filter (·.1 ∉ dropped) }

/-- `refreshSchedule`, once `running` is read. -/
def refreshing (running : Bool) : Prog Scheduler Unit :=
  if running then
    match answers.findAll with
    | .error e => throw e
    | .ok rules => Prog.write (install p rules)
  else return

def refreshSchedule : Prog Scheduler Unit := do
  refreshing p answers (← Prog.read (·.running))

def clearTimers (s : Scheduler) : Scheduler :=
  { s with timers := [], scheduleFingerprints := [] }

/-- `tickLeader` with a lock, once `isLeader` is read. -/
def ticking (isLeader : Bool) : Prog Scheduler Unit :=
  if isLeader then
    match answers.heartbeat with
    | .error e => throw e
    | .ok true => return
    | .ok false => Prog.write fun s => { clearTimers s with isLeader := false }
  else
    match answers.tryAcquire with
    | .error e => throw e
    | .ok false => return
    | .ok true => .sect (fun s => { s with isLeader := true }) fun s => refreshing p answers s.running

def tickLeader : Prog Scheduler Unit :=
  if leaderLock then do ticking p answers (← Prog.read (·.isLeader))
  else return

/-- The first section runs up to the first `await` of `tickLeader` or `refreshSchedule`. -/
def start : Prog Scheduler Unit :=
  .sect
    (fun s =>
      if s.running then s
      else if leaderLock then { s with running := true, leaderTimer := true }
      else { s with running := true, isLeader := true })
    fun s =>
      if s.running then return
      else
        (if leaderLock then ticking p answers s.isLeader else refreshing p answers true) >>= fun _ =>
          Prog.write fun s => { s with refreshTimer := true }

def stop : Prog Scheduler Unit :=
  Prog.write fun s => { clearTimers s with
    running := false
    leaderTimer := false
    refreshTimer := false
    debounceTimer := false
    isLeader := false }

def notifyRuleChanged : Prog Scheduler Unit :=
  Prog.write fun s => if s.running && s.isLeader then { s with debounceTimer := true } else s

/-- The callback of `leaderTimer`. -/
def leaderTimer : Prog Scheduler Unit := .sect id fun s =>
  if s.running then
    if leaderLock then ticking p answers s.isLeader else return
  else return

/-- The callback of `refreshTimer`. -/
def refreshTimer : Prog Scheduler Unit := .sect id fun s =>
  if s.running && s.isLeader then refreshing p answers s.running else return

/-- The callback of `debounceTimer`. -/
def debounceTimer : Prog Scheduler Unit :=
  .sect (fun s => { s with debounceTimer := false }) fun s => refreshing p answers s.running

end AlertEvaluatorService

inductive ServiceCall : Type where
  | start (answers : Answers)
  | stop
  | tickLeader (answers : Answers)
  | notifyRuleChanged
  | refreshSchedule (answers : Answers)
  | leaderTimer (answers : Answers)
  | refreshTimer (answers : Answers)
  | debounceTimer (answers : Answers)

open AlertEvaluatorService in
def ServiceCall.code (p : Platform) (leaderLock : Bool) : ServiceCall → Prog Scheduler Unit
  | .start answers => AlertEvaluatorService.start p leaderLock answers
  | .stop => AlertEvaluatorService.stop
  | .tickLeader answers => AlertEvaluatorService.tickLeader p leaderLock answers
  | .notifyRuleChanged => AlertEvaluatorService.notifyRuleChanged
  | .refreshSchedule answers => AlertEvaluatorService.refreshSchedule p answers
  | .leaderTimer answers => AlertEvaluatorService.leaderTimer p leaderLock answers
  | .refreshTimer answers => AlertEvaluatorService.refreshTimer p answers
  | .debounceTimer answers => AlertEvaluatorService.debounceTimer p answers

/-! ## What a refresh installs -/

section Install

open AlertEvaluatorService

variable {p : Platform} {rules : List AlertRule} {rule : AlertRule} {s : Scheduler} {id : String}

theorem mem_mapSet {β : Type} {key : String} {value : β} {entries : List (String × β)} :
    id ∈ (mapSet key value entries).map (·.1) ↔ id = key ∨ id ∈ entries.map (·.1) := by
  unfold mapSet
  split
  · rename_i hkey
    have hkeys : (entries.map fun entry => if entry.1 = key then (key, value) else entry).map
        (·.1) = entries.map (·.1) := by
      rw [List.map_map]
      refine List.map_congr_left fun entry _ => ?_
      show (if entry.1 = key then (key, value) else entry).1 = entry.1
      split
      · rename_i heq
        exact heq.symm
      · rfl
    rw [hkeys]
    exact ⟨Or.inr, fun h => h.elim (fun heq => heq ▸ hkey) fun hmem => hmem⟩
  · rw [List.map_append, List.mem_append, or_comm]
    simp

theorem scheduleRule_timers : id ∈ (scheduleRule p s rule).timers.map (·.1) ↔
    (rule.state ≠ "disabled" ∧ id = rule.id) ∨ id ∈ s.timers.map (·.1) := by
  unfold scheduleRule
  split
  · rename_i hdisabled
    simp [hdisabled]
  · rename_i henabled
    dsimp only
    split
    · rename_i hsame
      exact ⟨Or.inr, fun h => h.elim (fun heq => heq.2 ▸ hsame.1) fun hmem => hmem⟩
    · rw [mem_mapSet]
      simp [henabled]

theorem scheduleRule_flags : (scheduleRule p s rule).running = s.running ∧
    (scheduleRule p s rule).isLeader = s.isLeader := by
  unfold scheduleRule
  split
  · exact ⟨rfl, rfl⟩
  · dsimp only
    split <;> exact ⟨rfl, rfl⟩

theorem mem_seen : id ∈ seen rules ↔ ∃ rule ∈ rules, rule.state ≠ "disabled" ∧ rule.id = id := by
  simp [seen, and_assoc]

theorem scheduled_timers : ∀ {s : Scheduler},
    id ∈ (rules.foldl (scheduleRule p) s).timers.map (·.1) ↔
      id ∈ seen rules ∨ id ∈ s.timers.map (·.1) := by
  induction rules with
  | nil => simp [seen]
  | cons rule rules ih =>
    intro s
    rw [List.foldl_cons, ih, scheduleRule_timers, mem_seen, mem_seen]
    constructor
    · rintro (⟨r, hr, hmem⟩ | ⟨henabled, rfl⟩ | hmem)
      · exact Or.inl ⟨r, List.mem_cons_of_mem _ hr, hmem⟩
      · exact Or.inl ⟨rule, List.mem_cons_self, henabled, rfl⟩
      · exact Or.inr hmem
    · rintro (⟨r, hr, henabled, rfl⟩ | hmem)
      · rcases List.mem_cons.mp hr with rfl | hr
        · exact Or.inr (Or.inl ⟨henabled, rfl⟩)
        · exact Or.inl ⟨r, hr, henabled, rfl⟩
      · exact Or.inr (Or.inr hmem)

theorem scheduled_flags : ∀ {s : Scheduler},
    (rules.foldl (scheduleRule p) s).running = s.running ∧
      (rules.foldl (scheduleRule p) s).isLeader = s.isLeader := by
  induction rules with
  | nil => exact ⟨rfl, rfl⟩
  | cons rule rules ih =>
    intro s
    obtain ⟨hrunning, hleader⟩ := @scheduleRule_flags p rule s
    obtain ⟨hrunning', hleader'⟩ := @ih (scheduleRule p s rule)
    exact ⟨hrunning'.trans hrunning, hleader'.trans hleader⟩

theorem install_timers : id ∈ (install p rules s).timers.map (·.1) ↔ id ∈ seen rules := by
  have hscheduled := @scheduled_timers p rules id s
  unfold install
  dsimp only
  constructor
  · intro hmem
    obtain ⟨entry, hentry, rfl⟩ := List.mem_map.mp hmem
    obtain ⟨hin, hkept⟩ := List.mem_filter.mp hentry
    by_contra hnot
    refine absurd (of_decide_eq_true hkept) (not_not_intro ?_)
    exact List.mem_filter.mpr ⟨List.mem_map_of_mem hin, decide_eq_true hnot⟩
  · intro hseen
    obtain ⟨entry, hin, rfl⟩ := List.mem_map.mp (hscheduled.mpr (Or.inl hseen))
    refine List.mem_map_of_mem (List.mem_filter.mpr ⟨hin, decide_eq_true fun hdropped => ?_⟩)
    exact of_decide_eq_true (List.mem_filter.mp hdropped).2 hseen

theorem install_empty : (install p rules s).timers = [] ↔
    ∀ rule ∈ rules, rule.state = "disabled" := by
  constructor
  · intro hnone rule hrule
    by_contra henabled
    have hmem := (@install_timers p rules s rule.id).mpr
      (mem_seen.mpr ⟨rule, hrule, henabled, rfl⟩)
    rw [hnone] at hmem
    cases hmem
  · intro hdisabled
    rw [← List.map_eq_nil_iff (f := Prod.fst), List.eq_nil_iff_forall_not_mem]
    intro id hmem
    obtain ⟨rule, hrule, henabled, -⟩ := mem_seen.mp (install_timers.mp hmem)
    exact henabled (hdisabled rule hrule)

theorem install_flags : (install p rules s).running = s.running ∧
    (install p rules s).isLeader = s.isLeader := scheduled_flags

end Install

/-! ## Runs -/

def OnlyWhileLeading (s : Scheduler) : Prop :=
  s.timers ≠ [] → s.running = true ∧ s.isLeader = true

def Orderly (p : Platform) : Prog Scheduler Unit → Prop
  | .ret _ => True
  | .fail _ => True
  | .sect f k =>
    ((∀ s, OnlyWhileLeading s → OnlyWhileLeading (f s)) ∨
      ∃ rules, f = AlertEvaluatorService.install p rules) ∧ ∀ s, Orderly p (k s)

/-- A refresh that has a rule to schedule installs its timers while the service runs as the
leader. -/
def Entitled (p : Platform) (c : Config Scheduler ServiceCall Unit) (l : Label ServiceCall) :
    Prop :=
  ∀ i o f k rules, l = .step i → c.threads[i]? = some ⟨o, .sect f k⟩ →
    f = AlertEvaluatorService.install p rules → (∃ rule ∈ rules, rule.state ≠ "disabled") →
    c.st.running = true ∧ c.st.isLeader = true

section Runs

open AlertEvaluatorService

variable {p : Platform} {leaderLock : Bool} {answers : Answers}
  {c c' : Config Scheduler ServiceCall Unit}

theorem Orderly.bind {a : Prog Scheduler Unit} {k : Unit → Prog Scheduler Unit}
    (ha : Orderly p a) (hk : ∀ x, Orderly p (k x)) : Orderly p (a >>= k) := by
  induction a with
  | ret x => exact hk x
  | fail e => trivial
  | sect f next ih => exact ⟨ha.1, fun s => ih s (ha.2 s)⟩

theorem orderly_write {f : Scheduler → Scheduler}
    (h : ∀ s, OnlyWhileLeading s → OnlyWhileLeading (f s)) : Orderly p (Prog.write f) :=
  ⟨Or.inl h, fun _ => trivial⟩

theorem orderly_refreshing (running : Bool) : Orderly p (refreshing p answers running) := by
  unfold refreshing
  split
  · split
    · trivial
    · exact ⟨Or.inr ⟨_, rfl⟩, fun _ => trivial⟩
  · trivial

theorem orderly_ticking (isLeader : Bool) : Orderly p (ticking p answers isLeader) := by
  unfold ticking
  split
  · split
    · trivial
    · trivial
    · exact orderly_write fun s _ hset => absurd rfl hset
  · split
    · trivial
    · trivial
    · exact ⟨Or.inl fun s hs hset => ⟨(hs hset).1, rfl⟩, fun s => orderly_refreshing _⟩

theorem orderly_start : Orderly p (AlertEvaluatorService.start p leaderLock answers) := by
  refine ⟨Or.inl fun s hs => ?_, fun s => ?_⟩
  · beta_reduce
    split
    · exact hs
    · split
      · exact fun hset => ⟨rfl, (hs hset).2⟩
      · exact fun _ => ⟨rfl, rfl⟩
  · beta_reduce
    split
    · trivial
    · refine Orderly.bind ?_ fun _ => orderly_write fun s hs => hs
      split
      · exact orderly_ticking _
      · exact orderly_refreshing _

theorem orderly_code (call : ServiceCall) : Orderly p (call.code p leaderLock) := by
  have hread : ∀ s : Scheduler, OnlyWhileLeading s → OnlyWhileLeading (id s) := fun _ hs => hs
  cases call with
  | start answers => exact orderly_start
  | stop => exact orderly_write fun s _ hset => absurd rfl hset
  | tickLeader answers =>
    show Orderly p (if leaderLock then _ else _)
    split
    · exact ⟨Or.inl hread, fun s => orderly_ticking _⟩
    · trivial
  | notifyRuleChanged =>
    refine orderly_write fun s hs => ?_
    split <;> exact hs
  | refreshSchedule answers => exact ⟨Or.inl hread, fun s => orderly_refreshing _⟩
  | leaderTimer answers =>
    refine ⟨Or.inl hread, fun s => ?_⟩
    beta_reduce
    split
    · split
      · exact orderly_ticking _
      · trivial
    · trivial
  | refreshTimer answers =>
    refine ⟨Or.inl hread, fun s => ?_⟩
    beta_reduce
    split
    · exact orderly_refreshing _
    · trivial
  | debounceTimer answers => exact ⟨Or.inl fun s hs => hs, fun s => orderly_refreshing _⟩

theorem orderly_next {l : Label ServiceCall} (h : ∀ th ∈ c.threads, Orderly p th.prog)
    (hn : c.next (ServiceCall.code p leaderLock) l = some c') :
    ∀ th ∈ c'.threads, Orderly p th.prog := by
  cases l with
  | start call =>
    intro th hmem
    rw [(Config.next_start hn).2] at hmem
    rcases List.mem_append.mp hmem with hmem | hmem
    · exact h th hmem
    · rw [List.mem_singleton.mp hmem]
      exact orderly_code call
  | step i =>
    obtain ⟨o, f, k, hi, -, hth⟩ := Config.next_step hn
    intro th hmem
    rw [hth] at hmem
    rcases List.mem_or_eq_of_mem_set hmem with hmem | rfl
    · exact h th hmem
    · exact (h _ (List.mem_of_getElem? hi)).2 c.st

theorem leading_next_iff {l : Label ServiceCall} (h : ∀ th ∈ c.threads, Orderly p th.prog)
    (hs : OnlyWhileLeading c.st) :
    (∀ c', c.next (ServiceCall.code p leaderLock) l = some c' → OnlyWhileLeading c'.st) ↔
      Entitled p c l := by
  constructor
  · rintro hnext i o f k rules rfl hi rfl ⟨rule, hrule, henabled⟩
    have hstep : c.next (ServiceCall.code p leaderLock) (.step i) =
        some ⟨install p rules c.st, c.threads.set i ⟨o, k c.st⟩⟩ := by
      simp only [Config.next, hi]
    have hset : (install p rules c.st).timers ≠ [] := fun hnone =>
      henabled (install_empty.mp hnone rule hrule)
    obtain ⟨hrunning, hleader⟩ := hnext _ hstep hset
    exact ⟨install_flags.1.symm.trans hrunning, install_flags.2.symm.trans hleader⟩
  · intro hentitled c' hn
    cases l with
    | start call =>
      rw [(Config.next_start hn).1]
      exact hs
    | step i =>
      obtain ⟨o, f, k, hi, hst, -⟩ := Config.next_step hn
      rw [hst]
      rcases (h _ (List.mem_of_getElem? hi)).1 with hkeeps | ⟨rules, rfl⟩
      · exact hkeeps c.st hs
      · intro hset
        have hrule : ∃ rule ∈ rules, rule.state ≠ "disabled" := by
          by_contra hnone
          refine hset (install_empty.mpr fun rule hrule => ?_)
          by_contra henabled
          exact hnone ⟨rule, hrule, henabled⟩
        obtain ⟨hrunning, hleader⟩ := hentitled i o _ k rules rfl hi rfl hrule
        exact ⟨install_flags.1.trans hrunning, install_flags.2.trans hleader⟩

theorem leading_allOk_iff (ls : List (Label ServiceCall)) :
    ∀ {c : Config Scheduler ServiceCall Unit}, (∀ th ∈ c.threads, Orderly p th.prog) →
      OnlyWhileLeading c.st →
      (AllOk (ServiceCall.code p leaderLock) (Entitled p) c ls ↔
        AllOk (ServiceCall.code p leaderLock) (fun c l => ∀ c',
          c.next (ServiceCall.code p leaderLock) l = some c' → OnlyWhileLeading c'.st) c ls) := by
  induction ls with
  | nil => exact fun _ _ => Iff.rfl
  | cons l ls ih =>
    intro c h hs
    have hstep := @leading_next_iff p leaderLock c l h hs
    constructor
    · rintro ⟨hnow, hrest⟩
      have hsafe := hstep.mpr hnow
      exact ⟨hsafe, fun c' hn => (ih (orderly_next h hn) (hsafe c' hn)).mp (hrest c' hn)⟩
    · rintro ⟨hsafe, hrest⟩
      exact ⟨hstep.mp hsafe,
        fun c' hn => (ih (orderly_next h hn) (hsafe c' hn)).mpr (hrest c' hn)⟩

end Runs

/-- **Only a running leader schedules rules.** Along every schedule of calls and callbacks of a
new service, timers are set only while it runs as the leader, in every state reached, iff
every refresh that has a rule to schedule installs its timers while the service runs as
the leader. -/
theorem only_leader_schedules (p : Platform) (leaderLock : Bool) (ls : List (Label ServiceCall)) :
    AllOk (ServiceCall.code p leaderLock) (Entitled p) ⟨{}, []⟩ ls ↔
      ∀ pre c, pre <+: ls → Config.exec (ServiceCall.code p leaderLock) ⟨{}, []⟩ pre = some c →
        OnlyWhileLeading c.st := by
  have hfresh : OnlyWhileLeading {} := fun hset => absurd rfl hset
  rw [leading_allOk_iff ls (fun th hth => by cases hth) hfresh]
  exact allOk_next_iff (I := fun c => OnlyWhileLeading c.st) ls ⟨{}, []⟩ hfresh

def freeLock : Answers where
  tryAcquire := .ok true
  findAll := .ok [errorRule]

def stoppedEarly : List (Label ServiceCall) :=
  [.start (.start freeLock), .step 0, .step 0, .start .stop, .step 1, .step 0]

/-- The timer of the rule outlives the service. -/
theorem timer_leaks :
    ¬ ∀ (p : Platform) (ls : List (Label ServiceCall)) (c : Config Scheduler ServiceCall Unit),
      Config.exec (ServiceCall.code p true) ⟨{}, []⟩ ls = some c → OnlyWhileLeading c.st := by
  intro hall
  have hexec : (Config.exec (ServiceCall.code utc true) ⟨{}, []⟩ stoppedEarly).map (fun c =>
      (c.st.timers.map (·.1), c.st.running)) = some (["alert_1"], false) := by
    decide +kernel
  obtain ⟨c, hc, hstate⟩ := Option.map_eq_some_iff.mp hexec
  obtain ⟨htimers, hrunning⟩ := Prod.mk.inj hstate
  have hset : c.st.timers ≠ [] := by
    intro hnone
    rw [hnone] at htimers
    cases htimers
  rw [(hall utc stoppedEarly c hc hset).1] at hrunning
  cases hrunning

end OpenObs.Alerts
