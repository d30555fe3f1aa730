import OpenObs.Foundation.Clock
import OpenObs.Rbac.Tokens

/-!
# The rate limiter

`middleware/rate-limiter.ts`: a sliding window of admitted requests for each key, and
a janitor that drops the keys nobody has used for two windows. The store forgets what
it no longer needs; what it still holds is what a limiter that forgets nothing would
count.
-/

namespace OpenObs.Middleware

open OpenObs.Foundation

/-! ## The middleware -/

structure Request where
  forwardedFor : Option (String ⊕ List String) := none
  remoteAddress : Option String := none
  userId : Option String := none

/-- `keyFn` answers `none` for a request that is not limited. -/
structure RateLimiterOptions where
  windowMs : ℚ
  max : ℚ
  keyFn : Option (Request → Option String) := none

structure WindowEntry where
  timestamps : List ℚ
  lastSeen : ℚ

abbrev Store := String → Option WindowEntry

/-- What the middleware answers: it calls `next`, with or without having counted the
request, or sends a 429. -/
inductive Reply : Type where
  | skipped
  | admitted (limit remaining : ℚ)
  | refused (retryAfter : ℤ) (limit remaining : ℚ) (code message : String)
deriving DecidableEq

def Reply.isAdmitted : Reply → Bool
  | .admitted _ _ => true
  | _ => false

def clientIp (req : Request) : String :=
  match req.forwardedFor with
  | some (.inl forwarded) => (((Text.split forwarded ',').head?).map Rbac.trim).getD "unknown"
  | _ => req.remoteAddress.getD "unknown"

def getKey (o : RateLimiterOptions) (req : Request) : Option String :=
  match o.keyFn with
  | some keyFn => keyFn req
  | none => some (clientIp req)

def cleanup (o : RateLimiterOptions) (now : ℚ) (store : Store) : Store := fun k =>
  (store k).filter fun v => !decide (v.lastSeen < now - o.windowMs * 2)

def kept (store : Store) (key : String) : List ℚ :=
  ((store key).map (·.timestamps)).getD []

def rateLimiter (o : RateLimiterOptions) (req : Request) (now : ℚ) (store : Store) :
    Reply × Store :=
  match getKey o req with
  | none => (.skipped, store)
  | some key =>
    let timestamps := inWindow o.windowMs now (kept store key)
    if o.max ≤ timestamps.length then
      let retryAfterMs : ℚ :=
        match timestamps.head? with
        | some oldestInWindow => oldestInWindow + o.windowMs - now
        | none => o.windowMs
      (.refused ⌈retryAfterMs / 1000⌉ o.max 0 "RATE_LIMITED" "Too many requests",
        Function.update store key (some ⟨timestamps, now⟩))
    else
      (.admitted o.max (o.max - (timestamps.length + 1 : ℕ)),
        Function.update store key (some ⟨timestamps ++ [now], now⟩))

/-! ## Histories -/

inductive Event : Type where
  | request (req : Request) (now : ℚ)
  | janitor (now : ℚ)

def Event.now : Event → ℚ
  | .request _ now => now
  | .janitor now => now

structure Served where
  req : Request
  now : ℚ
  reply : Reply

structure History where
  store : Store
  served : List Served

def History.next (o : RateLimiterOptions) (h : History) : Event → History
  | .request req now =>
    let (reply, store) := rateLimiter o req now h.store
    ⟨store, h.served ++ [⟨req, now, reply⟩]⟩
  | .janitor now => { h with store := cleanup o now h.store }

def history (o : RateLimiterOptions) (events : List Event) : History :=
  events.foldl (History.next o) ⟨fun _ => none, []⟩

def admittedAt (o : RateLimiterOptions) (key : String) (served : List Served) : List ℚ :=
  (served.filter fun s => s.reply.isAdmitted && getKey o s.req = some key).map (·.now)

theorem history_snoc (o : RateLimiterOptions) (events : List Event) (e : Event) :
    history o (events ++ [e]) = (history o events).next o e := by
  unfold history
  rw [List.foldl_append]
  rfl

theorem admittedAt_append {o : RateLimiterOptions} {key : String} {xs ys : List Served} :
    admittedAt o key (xs ++ ys) = admittedAt o key xs ++ admittedAt o key ys := by
  simp [admittedAt]

theorem mem_admittedAt {o : RateLimiterOptions} {key : String} {xs : List Served} {t : ℚ}
    (h : t ∈ admittedAt o key xs) : ∃ s ∈ xs, s.now = t := by
  obtain ⟨s, hs, rfl⟩ := List.mem_map.mp h
  exact ⟨s, List.mem_of_mem_filter hs, rfl⟩

theorem admittedAt_snoc {o : RateLimiterOptions} {key : String} {xs : List Served} {s : Served} :
    admittedAt o key (xs ++ [s]) = admittedAt o key xs ++
      (if s.reply.isAdmitted = true ∧ getKey o s.req = some key then [s.now] else []) := by
  rw [admittedAt_append]
  congr 1
  by_cases ha : s.reply.isAdmitted = true
  · by_cases hk : getKey o s.req = some key <;> simp [admittedAt, ha, hk]
  · simp [admittedAt, ha]

/-! ## What the store remembers -/

section Limiter

variable {o : RateLimiterOptions} {h : History} {req : Request} {key : String} {now now' : ℚ}

@[simp] theorem kept_update_self {store : Store} {v : WindowEntry} :
    kept (Function.update store key (some v)) key = v.timestamps := by
  simp [kept]

theorem kept_update_ne {store : Store} {key' : String} {v : WindowEntry} (hne : key' ≠ key) :
    kept (Function.update store key (some v)) key' = kept store key' := by
  simp [kept, hne]

theorem rateLimiter_skip {store : Store} (hk : getKey o req = none) :
    rateLimiter o req now store = (.skipped, store) := by
  simp [rateLimiter, hk]

theorem isAdmitted_iff {store : Store} (hk : getKey o req = some key) :
    (rateLimiter o req now store).1.isAdmitted = true ↔
      ((inWindow o.windowMs now (kept store key)).length : ℚ) < o.max := by
  simp only [rateLimiter, hk]
  split
  · rename_i hfull
    exact iff_of_false (by simp [Reply.isAdmitted]) (not_lt.mpr hfull)
  · rename_i hroom
    exact iff_of_true rfl (not_le.mp hroom)

theorem rateLimiter_store {store : Store} (hk : getKey o req = some key) :
    (rateLimiter o req now store).2 = Function.update store key
      (some ⟨inWindow o.windowMs now (kept store key) ++
        (if (rateLimiter o req now store).1.isAdmitted = true then [now] else []), now⟩) := by
  simp only [rateLimiter, hk]
  split
  · simp [Reply.isAdmitted]
  · simp [Reply.isAdmitted]

/-- At `now` the store knows of every key what a limiter that forgets nothing would count. -/
structure Remembers (o : RateLimiterOptions) (h : History) (now : ℚ) : Prop where
  window : ∀ key, inWindow o.windowMs now (kept h.store key) =
    inWindow o.windowMs now (admittedAt o key h.served)
  seen : ∀ key v, h.store key = some v → v.lastSeen ≤ now ∧ ∀ a ∈ v.timestamps, a ≤ v.lastSeen
  past : ∀ s ∈ h.served, s.now ≤ now
  sorted : ∀ key, (admittedAt o key h.served).Pairwise (· ≤ ·)
  room : ∀ key, ((inWindow o.windowMs now (admittedAt o key h.served)).length : ℚ) < o.max + 1

theorem Remembers.mono (hr : Remembers o h now) (hle : now ≤ now') : Remembers o h now' where
  window key := inWindow_eq_of_le hle (hr.window key)
  seen key v hv := ⟨(hr.seen key v hv).1.trans hle, (hr.seen key v hv).2⟩
  past s hs := (hr.past s hs).trans hle
  sorted := hr.sorted
  room key := by
    refine lt_of_le_of_lt ?_ (hr.room key)
    exact_mod_cast length_inWindow_le hle

theorem Remembers.le_now (hr : Remembers o h now) {t : ℚ} (ht : t ∈ admittedAt o key h.served) :
    t ≤ now := by
  obtain ⟨s, hs, rfl⟩ := mem_admittedAt ht
  exact hr.past s hs

theorem Remembers.cleanup (hw : 0 < o.windowMs) (hr : Remembers o h now) :
    Remembers o { h with store := cleanup o now h.store } now where
  window key := by
    rw [← hr.window key]
    cases hv : h.store key with
    | none => simp [kept, Middleware.cleanup, hv]
    | some v =>
      by_cases hold : v.lastSeen < now - o.windowMs * 2
      · have hgone : inWindow o.windowMs now v.timestamps = [] := by
          refine inWindow_eq_nil fun a ha => ?_
          have hle := (hr.seen key v hv).2 a ha
          linarith
        simp [kept, Middleware.cleanup, hv, Option.filter, hold, hgone]
      · simp [kept, Middleware.cleanup, hv, Option.filter, hold]
  seen key v hv := by
    simp only [Middleware.cleanup, Option.filter_eq_some_iff] at hv
    exact hr.seen key v hv.1
  past := hr.past
  sorted := hr.sorted
  room := hr.room

theorem Remembers.skip (hk : getKey o req = none) (hr : Remembers o h now) :
    Remembers o (h.next o (.request req now)) now := by
  have hsame : ∀ key, admittedAt o key (h.next o (.request req now)).served =
      admittedAt o key h.served := by
    intro key
    simp [History.next, admittedAt_snoc, rateLimiter_skip hk, Reply.isAdmitted]
  refine ⟨fun key => ?_, ?_, ?_, fun key => ?_, fun key => ?_⟩
  · rw [hsame, ← hr.window key]
    simp [History.next, rateLimiter_skip hk]
  · simpa [History.next, rateLimiter_skip hk] using hr.seen
  · intro s hs
    simp only [History.next, List.mem_append, List.mem_singleton] at hs
    rcases hs with hs | rfl
    · exact hr.past s hs
    · exact le_rfl
  · rw [hsame]
    exact hr.sorted key
  · rw [hsame]
    exact hr.room key

theorem Remembers.request (hw : 0 < o.windowMs) (hk : getKey o req = some key)
    (hr : Remembers o h now) : Remembers o (h.next o (.request req now)) now := by
  have hlog : ∀ key', admittedAt o key' (h.next o (.request req now)).served =
      admittedAt o key' h.served ++
        (if (rateLimiter o req now h.store).1.isAdmitted = true ∧ key' = key then [now]
          else []) := by
    intro key'
    simp only [History.next, admittedAt_snoc, hk, Option.some.injEq, eq_comm]
  have hstore : (h.next o (.request req now)).store = Function.update h.store key
      (some ⟨inWindow o.windowMs now (kept h.store key) ++
        (if (rateLimiter o req now h.store).1.isAdmitted = true then [now] else []), now⟩) :=
    rateLimiter_store hk
  refine ⟨fun key' => ?_, fun key' v hv => ?_, ?_, fun key' => ?_, fun key' => ?_⟩
  · rw [hlog, hstore]
    by_cases hkey : key' = key
    · subst hkey
      simp only [kept_update_self, inWindow_append, and_true, inWindow_inWindow le_rfl]
      rw [hr.window key']
    · rw [kept_update_ne hkey]
      simpa [hkey] using hr.window key'
  · rw [hstore] at hv
    by_cases hkey : key' = key
    · subst hkey
      rw [Function.update_self, Option.some.injEq] at hv
      subst hv
      refine ⟨le_rfl, fun a ha => ?_⟩
      rcases List.mem_append.mp ha with ha | ha
      · -- what is kept in the window was admitted, so it is not in the future
        rw [hr.window key'] at ha
        exact hr.le_now (mem_inWindow.mp ha).1
      · split at ha
        · exact le_of_eq (List.mem_singleton.mp ha)
        · cases ha
    · rw [Function.update_of_ne hkey] at hv
      exact hr.seen key' v hv
  · intro s hs
    simp only [History.next, List.mem_append, List.mem_singleton] at hs
    rcases hs with hs | rfl
    · exact hr.past s hs
    · exact le_rfl
  · rw [hlog, List.pairwise_append]
    refine ⟨hr.sorted key', ?_, fun a ha b hb => ?_⟩
    · split <;> simp
    · split at hb
      · rw [List.mem_singleton.mp hb]
        exact hr.le_now ha
      · cases hb
  · rw [hlog]
    by_cases hadm : (rateLimiter o req now h.store).1.isAdmitted = true ∧ key' = key
    · obtain ⟨hadm, rfl⟩ := hadm
      have hroom := (isAdmitted_iff hk).mp hadm
      rw [hr.window key'] at hroom
      have hself : inWindow o.windowMs now [now] = [now] := by
        simp [inWindow, hw]
      simp only [hadm, and_self, if_true, inWindow_append, hself, List.length_append,
        List.length_singleton]
      push_cast
      linarith
    · simpa [hadm] using hr.room key'

theorem Remembers.next (hw : 0 < o.windowMs) (e : Event) (hr : Remembers o h e.now) :
    Remembers o (h.next o e) e.now := by
  cases e with
  | janitor t => exact hr.cleanup hw
  | request r t =>
    cases hk : getKey o r with
    | none => exact hr.skip hk
    | some key => exact hr.request hw hk

theorem remembers_history (hmax : 0 ≤ o.max) (hw : 0 < o.windowMs) (events : List Event) :
    ∀ now, ((events.map Event.now) ++ [now]).Pairwise (· ≤ ·) →
      Remembers o (history o events) now := by
  induction events using List.reverseRecOn with
  | nil =>
    intro now _
    refine ⟨fun _ => rfl, fun _ _ hv => (by cases hv), fun _ hs => (by cases hs),
      fun _ => List.Pairwise.nil, fun _ => ?_⟩
    simp only [history, List.foldl_nil, admittedAt, List.filter_nil, List.map_nil, inWindow_nil,
      List.length_nil]
    push_cast
    linarith
  | append_singleton events e ih =>
    intro now hclock
    rw [List.map_append, List.pairwise_append] at hclock
    obtain ⟨hbefore, -, hle⟩ := hclock
    rw [history_snoc]
    exact ((ih e.now hbefore).next hw e).mono (hle e.now (by simp) now (by simp))

/-! ## The window is exact -/

theorem refused_of_full (hk : getKey o req = some key) (hpos : 0 < o.max)
    {store : Store} (hrefused : (rateLimiter o req now store).1.isAdmitted = false) :
    ∃ oldest rest, inWindow o.windowMs now (kept store key) = oldest :: rest ∧
      (rateLimiter o req now store).1 =
        .refused ⌈(oldest + o.windowMs - now) / 1000⌉ o.max 0 "RATE_LIMITED"
          "Too many requests" := by
  have hfull : ¬ ((inWindow o.windowMs now (kept store key)).length : ℚ) < o.max := by
    rw [← isAdmitted_iff hk, hrefused]
    simp
  cases hwin : inWindow o.windowMs now (kept store key) with
  | nil => exact absurd (by rw [hwin]; simpa using hpos) hfull
  | cons oldest rest =>
    refine ⟨oldest, rest, rfl, ?_⟩
    simp only [rateLimiter, hk]
    rw [if_pos (not_lt.mp hfull), hwin]
    rfl

theorem admittedAt_prefix (events later : List Event) :
    admittedAt o key (history o events).served <+:
      admittedAt o key (history o (events ++ later)).served := by
  induction later using List.reverseRecOn with
  | nil => simp
  | append_singleton later e ih =>
    refine ih.trans ?_
    rw [← List.append_assoc, history_snoc]
    cases e with
    | janitor t => exact List.prefix_rfl
    | request r t =>
      simp only [History.next, admittedAt_append]
      exact List.prefix_append _ _

theorem refused_before_retry {events later : List Event} {oldest : ℚ}
    {req' : Request}
    (hr' : Remembers o (history o (events ++ later)) now') (hle : now ≤ now')
    (hk : getKey o req' = some key)
    (hfull : o.max ≤ (inWindow o.windowMs now (admittedAt o key (history o events).served)).length)
    (hfirst : ∀ a ∈ inWindow o.windowMs now (admittedAt o key (history o events).served),
      oldest ≤ a)
    (hearly : now' < oldest + o.windowMs) :
    (rateLimiter o req' now' (history o (events ++ later)).store).1.isAdmitted = false := by
  obtain ⟨more, hmore⟩ : admittedAt o key (history o events).served <+:
      admittedAt o key (history o (events ++ later)).served := admittedAt_prefix events later
  rw [Bool.eq_false_iff, Ne, isAdmitted_iff hk, not_lt, hr'.window key, ← hmore, inWindow_append,
    List.length_append]
  have hstay : inWindow o.windowMs now' (admittedAt o key (history o events).served) =
      inWindow o.windowMs now (admittedAt o key (history o events).served) := by
    refine inWindow_eq_of_lt hle fun a ha => ?_
    have hge := hfirst a ha
    linarith
  rw [hstay]
  push_cast
  linarith [Nat.cast_nonneg (α := ℚ)
    (inWindow o.windowMs now' more).length]

theorem admitted_after_retry {h' : History} {oldest : ℚ} {req' : Request}
    (hr : Remembers o h now) (hr' : Remembers o h' now') (hle : now ≤ now')
    (hk : getKey o req' = some key)
    (hsame : admittedAt o key h'.served = admittedAt o key h.served)
    (hmem : oldest ∈ inWindow o.windowMs now (admittedAt o key h.served))
    (hlate : oldest + o.windowMs ≤ now') :
    (rateLimiter o req' now' h'.store).1.isAdmitted = true := by
  rw [isAdmitted_iff hk, hr'.window key, hsame]
  have hlt : (inWindow o.windowMs now' (admittedAt o key h.served)).length + 1 ≤
      (inWindow o.windowMs now (admittedAt o key h.served)).length :=
    length_inWindow_lt hle hmem (by linarith)
  have hroom := hr.room key
  have hcast : ((inWindow o.windowMs now' (admittedAt o key h.served)).length : ℚ) + 1 ≤
      (inWindow o.windowMs now (admittedAt o key h.served)).length := by exact_mod_cast hlt
  linarith

/-- The sliding window is exact: a request is admitted if and only if fewer than `max` were
admitted for its key in the window that ends with it, and after a refusal the instant at
which the oldest of these leaves the window is the first at which the key is admitted. -/
theorem rateLimiter_exact (o : RateLimiterOptions) (hmax : 0 ≤ o.max) (hw : 0 < o.windowMs)
    (events : List Event) (req : Request) (now : ℚ) (key : String)
    (hclock : (events.map Event.now ++ [now]).Pairwise (· ≤ ·)) (hk : getKey o req = some key) :
    let admitted := admittedAt o key (history o events).served
    let reply := (rateLimiter o req now (history o events).store).1
    (reply.isAdmitted = true ↔
      ((admitted.filter fun a => now - o.windowMs < a ∧ a ≤ now).length : ℚ) < o.max) ∧
    (0 < o.max → reply.isAdmitted = false →
      ∃ oldest ∈ admitted, now - o.windowMs < oldest ∧
        (∀ a ∈ admitted, now - o.windowMs < a → oldest ≤ a) ∧
        reply = .refused ⌈(oldest + o.windowMs - now) / 1000⌉ o.max 0 "RATE_LIMITED"
          "Too many requests" ∧
        ∀ (later : List Event) (req' : Request) (now' : ℚ), getKey o req' = some key →
          ((events ++ .request req now :: later).map Event.now ++ [now']).Pairwise (· ≤ ·) →
          let h' := history o (events ++ .request req now :: later)
          (now' < oldest + o.windowMs → (rateLimiter o req' now' h'.store).1.isAdmitted = false) ∧
          (oldest + o.windowMs ≤ now' → admittedAt o key h'.served = admitted →
            (rateLimiter o req' now' h'.store).1.isAdmitted = true)) := by
  intro admitted reply
  have hr : Remembers o (history o events) now := remembers_history hmax hw events now hclock
  refine ⟨?_, fun hpos hrefused => ?_⟩
  · have hwin : (admitted.filter fun a => now - o.windowMs < a ∧ a ≤ now) =
        inWindow o.windowMs now admitted := by
      apply List.filter_congr
      intro a ha
      simp [hr.le_now ha]
    rw [hwin, ← hr.window key]
    exact isAdmitted_iff hk
  · obtain ⟨oldest, rest, hwin, hreply⟩ := refused_of_full hk hpos hrefused
    have hfull : o.max ≤ (inWindow o.windowMs now admitted).length := by
      rw [← hr.window key, ← not_lt, ← isAdmitted_iff hk]
      exact Bool.eq_false_iff.mp hrefused
    rw [hr.window key] at hwin
    have hmem : oldest ∈ inWindow o.windowMs now admitted := by
      rw [hwin]
      exact List.mem_cons_self
    have hfirst : ∀ a ∈ inWindow o.windowMs now admitted, oldest ≤ a := by
      have hsorted : (oldest :: rest).Pairwise (· ≤ ·) := by
        rw [← hwin]
        exact (hr.sorted key).filter _
      intro a ha
      rw [hwin] at ha
      rcases List.mem_cons.mp ha with rfl | ha
      · exact le_rfl
      · exact List.rel_of_pairwise_cons hsorted ha
    refine ⟨oldest, (mem_inWindow.mp hmem).1, (mem_inWindow.mp hmem).2,
      fun a ha hlt => hfirst a (mem_inWindow.mpr ⟨ha, hlt⟩), hreply, ?_⟩
    intro later req' now' hk' hclock' h'
    have hr' := remembers_history hmax hw _ now' hclock'
    have hle : now ≤ now' := by
      refine (List.pairwise_append.mp hclock').2.2 now ?_ now' (by simp)
      exact List.mem_map.mpr ⟨.request req now, by simp, rfl⟩
    exact ⟨refused_before_retry hr' hle hk' hfull hfirst,
      fun hlate hsame => admitted_after_retry hr hr' hle hk' hsame hmem hlate⟩

/-- Two requests fill a window of one place; the second is told when to come back. -/
theorem rateLimiter_exact_full :
    (rateLimiter ⟨60000, 1, none⟩ {} 1000
      (history ⟨60000, 1, none⟩ [.request {} 400, .janitor 700]).store).1 =
        .refused 60 1 0 "RATE_LIMITED" "Too many requests" := by
  have hexact := rateLimiter_exact ⟨60000, 1, none⟩ (by decide +kernel) (by decide +kernel)
    [.request {} 400, .janitor 700] {} 1000 "unknown" (by decide +kernel) rfl
  have hrefused : (rateLimiter ⟨60000, 1, none⟩ {} 1000
      (history ⟨60000, 1, none⟩ [.request {} 400, .janitor 700]).store).1.isAdmitted = false := by
    decide +kernel
  obtain ⟨oldest, hmem, -, -, hreply, -⟩ := hexact.2 (by decide +kernel) hrefused
  have hone : admittedAt ⟨60000, 1, none⟩ "unknown"
      (history ⟨60000, 1, none⟩ [.request {} 400, .janitor 700]).served = [400] := by
    decide +kernel
  rw [hone, List.mem_singleton] at hmem
  rw [hreply, hmem]
  decide +kernel

end Limiter

end OpenObs.Middleware
