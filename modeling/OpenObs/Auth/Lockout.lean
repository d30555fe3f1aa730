import OpenObs.Auth.LocalProvider
import OpenObs.Foundation.Pool

/-!
# The lockout

Any number of logins at the same time (`auth/local-provider.ts`), seen from one key.
-/

namespace OpenObs.Auth

open OpenObs.Foundation

/-! ## What is written down about a key -/

def streak (entries : List Outcome) : List ℤ :=
  entries.foldl (fun failures outcome =>
    match outcome with
    | .failed now => failures ++ [now]
    | .succeeded => []
    | _ => failures) []

def failures (entries : List Outcome) : List ℤ :=
  entries.filterMap fun
    | .failed now => some now
    | _ => none

def passes (entries : List Outcome) : ℕ := entries.countP (· = .passed)

def ends (entries : List Outcome) : ℕ :=
  entries.countP fun
    | .failed _ => true
    | .succeeded => true
    | _ => false

/-- The instants from `a` on, before `a + w`. -/
def within (a w : ℤ) (l : List ℤ) : List ℤ := l.filter fun t => a ≤ t ∧ t < a + w

structure Counter where
  now : ℤ
  attempts : Option (List ℤ)
  entries : List Outcome

namespace Counter

def active (limiter : LoginRateLimiter) (s : Counter) : List ℤ :=
  inWindow limiter.windowMs s.now (s.attempts.getD [])

def blocked (limiter : LoginRateLimiter) (s : Counter) : Bool :=
  (limiter.isBlocked s.now s.attempts).1

/-- What one login does about its key; `true` is past the check. -/
inductive Move (limiter : LoginRateLimiter) (s : Counter) : Bool → Counter → Bool → Prop
  | wait (ms : ℕ) (b : Bool) : Move limiter s b { s with now := s.now + ms } b
  | pass (h : s.blocked limiter = false) : Move limiter s false
      { s with
        attempts := (limiter.isBlocked s.now s.attempts).2
        entries := s.entries ++ [.passed] } true
  | refuse (lag : ℕ) (h : s.blocked limiter = true) : Move limiter s false
      { now := s.now + lag
        attempts := (limiter.isBlocked s.now s.attempts).2
        entries := s.entries ++ [.refused (s.now + lag)
          (limiter.retryAfterMs (s.now + lag) (limiter.isBlocked s.now s.attempts).2)] } false
  | fail : Move limiter s true
      { s with
        attempts := LoginRateLimiter.recordFailure s.now s.attempts
        entries := s.entries ++ [.failed s.now] } false
  | succeed : Move limiter s true
      { s with attempts := none, entries := s.entries ++ [.succeeded] } false

/-- With `n` logins past the check the window has room for all of them, and a refusal is given and
ended by the oldest attempt. -/
structure Lock (limiter : LoginRateLimiter) (n : ℕ) (s : Counter) : Prop where
  known : s.active limiter = inWindow limiter.windowMs s.now (streak s.entries)
  past : ∀ t ∈ streak s.entries, t ≤ s.now
  sorted : (streak s.entries).Pairwise (· ≤ ·)
  armed : s.attempts.isSome = true → 0 < limiter.max
  inside : passes s.entries = ends s.entries + n
  bound : (s.active limiter).length + n ≤ limiter.max
  few : ∀ before middle after, s.entries = before ++ middle ++ after → .succeeded ∉ middle →
    ∀ a, (within a limiter.windowMs (failures middle)).length ≤ limiter.max
  locked : ∀ t r, .refused t r ∈ s.entries → s.now < t + r →
    limiter.max ≤ (s.active limiter).length ∧ s.attempts.isSome = true ∧
      ∀ a ∈ s.active limiter, t + r ≤ a + limiter.windowMs
  released : ∀ before t r after, s.entries = before ++ .refused t r :: after →
    (∀ t', .failed t' ∉ after) → limiter.max ≤ (s.active limiter).length →
    ∃ a ∈ s.active limiter, a + limiter.windowMs ≤ t + r

/-! ## The log grows by one -/

section Log

variable {entries before middle after : List Outcome} {o : Outcome} {a w : ℤ}

theorem failures_append : failures (before ++ after) = failures before ++ failures after :=
  List.filterMap_append

theorem passes_append : passes (before ++ after) = passes before + passes after :=
  List.countP_append

theorem ends_append : ends (before ++ after) = ends before + ends after := List.countP_append

theorem streak_append (entries : List Outcome) (h : .succeeded ∉ middle) :
    streak (entries ++ middle) = streak entries ++ failures middle := by
  induction middle using List.reverseRecOn with
  | nil => simp [failures]
  | append_singleton middle o ih =>
    rw [List.mem_append, not_or] at h
    have hrest := ih h.1
    unfold streak at hrest ⊢
    rw [← List.append_assoc, List.foldl_append, hrest]
    unfold failures
    rw [List.filterMap_append]
    cases o with
    | failed now => simp
    | succeeded => exact absurd (List.mem_singleton_self _) h.2
    | passed => simp
    | refused now r => simp

theorem stretch_append {P : List Outcome → Prop} (hnil : P [])
    (hold : ∀ before middle after, entries = before ++ middle ++ after → P middle)
    (hnew : ∀ before middle, entries = before ++ middle → P (middle ++ [o])) :
    ∀ before middle after, entries ++ [o] = before ++ middle ++ after → P middle := by
  intro before middle after heq
  rcases List.eq_nil_or_concat after with rfl | ⟨after, x, rfl⟩
  · rw [List.append_nil] at heq
    rcases List.eq_nil_or_concat middle with rfl | ⟨middle, x, rfl⟩
    · exact hnil
    · rw [List.concat_eq_append, ← List.append_assoc] at heq
      obtain ⟨hentries, hlast⟩ := List.append_inj' heq rfl
      cases hlast
      rw [List.concat_eq_append]
      exact hnew before middle hentries
  · rw [List.concat_eq_append, ← List.append_assoc] at heq
    obtain ⟨hentries, -⟩ := List.append_inj' heq rfl
    exact hold before middle after hentries

theorem split_append {x : Outcome} (h : entries ++ [o] = before ++ x :: after) (hne : x ≠ o) :
    ∃ after', after = after' ++ [o] ∧ entries = before ++ x :: after' := by
  rcases List.eq_nil_or_concat after with rfl | ⟨after', y, rfl⟩
  · obtain ⟨-, hlast⟩ := List.append_inj' h rfl
    cases hlast
    exact absurd rfl hne
  · rw [List.concat_eq_append, ← List.cons_append, ← List.append_assoc] at h
    obtain ⟨hentries, hlast⟩ := List.append_inj' h rfl
    cases hlast
    exact ⟨after', List.concat_eq_append, hentries⟩

end Log

/-! ## What one login keeps -/

section Moves

variable {limiter : LoginRateLimiter} {n : ℕ} {s : Counter}

theorem Lock.prune (h : Lock limiter n s) :
    Lock limiter n { s with attempts := (limiter.isBlocked s.now s.attempts).2 } := by
  have hactive : Counter.active limiter
      { s with attempts := (limiter.isBlocked s.now s.attempts).2 } = s.active limiter := by
    unfold active LoginRateLimiter.isBlocked
    cases s.attempts with
    | none => rfl
    | some attempts =>
      dsimp only
      split
      · rename_i hlen
        exact (List.length_eq_zero_iff.mp hlen).symm
      · exact inWindow_inWindow le_rfl
  have hsome : 0 < limiter.max → limiter.max ≤ (s.active limiter).length →
      (limiter.isBlocked s.now s.attempts).2.isSome = true := by
    intro hpos hlen
    unfold active at hlen
    unfold LoginRateLimiter.isBlocked
    cases hattempts : s.attempts with
    | none =>
      rw [hattempts] at hlen
      exact absurd hpos (Nat.not_lt.mpr hlen)
    | some attempts =>
      rw [hattempts] at hlen
      dsimp only [Option.getD_some] at hlen ⊢
      rw [if_neg (by omega)]
      rfl
  refine ⟨hactive.trans h.known, h.past, h.sorted, fun hsome => h.armed ?_, h.inside,
    hactive ▸ h.bound, h.few, fun t r hmem hnow => ?_, fun before t r after heq hnone => ?_⟩
  · unfold LoginRateLimiter.isBlocked at hsome
    cases hattempts : s.attempts with
    | none =>
      rw [hattempts] at hsome
      exact hsome
    | some attempts => rfl
  · obtain ⟨hlen, hwas, hall⟩ := h.locked t r hmem hnow
    rw [hactive]
    exact ⟨hlen, hsome (h.armed hwas) hlen, hall⟩
  · rw [hactive]
    exact h.released before t r after heq hnone

theorem Lock.wait (h : Lock limiter n s) (ms : ℕ) :
    Lock limiter n { s with now := s.now + ms } := by
  have hle : s.now ≤ s.now + ms := by omega
  have hfewer : (Counter.active limiter { s with now := s.now + ms }).length ≤
      (s.active limiter).length := length_inWindow_le hle
  refine ⟨?_, fun t ht => (h.past t ht).trans hle, h.sorted, h.armed, h.inside, ?_, h.few, ?_, ?_⟩
  · exact inWindow_eq_of_le hle h.known
  · have hbound := h.bound
    omega
  · intro t r hmem hnow
    dsimp only at hnow
    obtain ⟨hlen, hsome, hall⟩ := h.locked t r hmem (by omega)
    have hsame : Counter.active limiter { s with now := s.now + ms } = s.active limiter := by
      refine inWindow_eq_of_lt hle fun a ha => ?_
      have hlate := hall a ha
      dsimp only
      omega
    rw [hsame]
    exact ⟨hlen, hsome, hall⟩
  · intro before t r after heq hnone hlen
    obtain ⟨a, ha, hearly⟩ := h.released before t r after heq hnone (hlen.trans hfewer)
    refine ⟨a, ?_, hearly⟩
    -- the window is as full as it was, so the attempt is still in it
    by_contra hout
    have hleft : a ≤ s.now + ms - limiter.windowMs := by
      by_contra hin
      exact hout (mem_inWindow.mpr ⟨(mem_inWindow.mp ha).1, by dsimp only; omega⟩)
    have hfewer' : (Counter.active limiter { s with now := s.now + ms }).length <
      (s.active limiter).length := length_inWindow_lt hle ha hleft
    have hbound := h.bound
    omega

theorem Lock.blocked_iff (_ : Lock limiter n s) : s.blocked limiter = true ↔
    s.attempts.isSome = true ∧ limiter.max ≤ (s.active limiter).length := by
  unfold blocked active LoginRateLimiter.isBlocked
  cases s.attempts with
  | none => simp
  | some attempts => simp

theorem Lock.few_quiet (h : Lock limiter n s) {o : Outcome} (hquiet : failures [o] = []) :
    ∀ before middle after, s.entries ++ [o] = before ++ middle ++ after → .succeeded ∉ middle →
      ∀ a, (within a limiter.windowMs (failures middle)).length ≤ limiter.max := by
  refine stretch_append (fun _ a => Nat.zero_le _) h.few fun before middle heq hnot a => ?_
  rw [failures_append, hquiet, List.append_nil]
  exact h.few before middle [] (by rw [List.append_nil]; exact heq)
    (fun hmem => hnot (List.mem_append_left _ hmem)) a

theorem Lock.pass (h : Lock limiter n s) (hblocked : s.blocked limiter = false)
    (hroom : (s.active limiter).length + n < limiter.max) :
    Lock limiter (n + 1) { s with entries := s.entries ++ [.passed] } := by
  have hstreak : streak (s.entries ++ [.passed]) = streak s.entries := by
    rw [streak_append _ (by decide)]
    exact List.append_nil _
  constructor
  case known => exact h.known.trans (congrArg _ hstreak.symm)
  case past =>
    dsimp only
    rw [hstreak]
    exact h.past
  case sorted =>
    dsimp only
    rw [hstreak]
    exact h.sorted
  case armed => exact h.armed
  case inside =>
    rw [passes_append, ends_append, h.inside]
    rfl
  case bound => exact hroom
  case few => exact h.few_quiet rfl
  case locked =>
    -- a refusal that lasts would have blocked this login
    intro t r hmem hnow
    have hold : Outcome.refused t r ∈ s.entries :=
      (List.mem_append.mp hmem).resolve_right (by simp)
    obtain ⟨hlen, hsome, -⟩ := h.locked t r hold hnow
    rw [h.blocked_iff.mpr ⟨hsome, hlen⟩] at hblocked
    cases hblocked
  case released =>
    intro before t r after heq hnone
    obtain ⟨after, rfl, hold⟩ := split_append heq (by simp)
    exact h.released before t r after hold fun t' hmem => hnone t' (List.mem_append_left _ hmem)

theorem Lock.oldest (h : Lock limiter n s) (hpos : 0 < limiter.max)
    (hlen : limiter.max ≤ (s.active limiter).length) :
    s.attempts.isSome = true ∧
      ∃ oldest, oldest ∈ s.active limiter ∧ (∀ a ∈ s.active limiter, oldest ≤ a) ∧
        limiter.retryAfterMs s.now s.attempts = max 0 (oldest + limiter.windowMs - s.now) := by
  have hknown := h.known
  unfold LoginRateLimiter.retryAfterMs
  cases hattempts : s.attempts with
  | none =>
    unfold active at hlen
    rw [hattempts] at hlen
    exact absurd hpos (Nat.not_lt.mpr hlen)
  | some attempts =>
    have hactive : s.active limiter = inWindow limiter.windowMs s.now attempts := by
      rw [active, hattempts]
      rfl
    rw [hactive] at hlen hknown ⊢
    dsimp only
    rw [if_neg (Nat.not_lt.mpr hlen)]
    have hsorted : (inWindow limiter.windowMs s.now attempts).Pairwise (· ≤ ·) := by
      rw [hknown]
      exact h.sorted.filter _
    cases hwindow : inWindow limiter.windowMs s.now attempts with
    | nil =>
      rw [hwindow] at hlen
      exact absurd hpos (Nat.not_lt.mpr hlen)
    | cons oldest rest =>
      rw [hwindow, List.pairwise_cons] at hsorted
      refine ⟨rfl, oldest, List.mem_cons_self, fun a ha => ?_, rfl⟩
      rcases List.mem_cons.mp ha with rfl | ha
      · exact le_rfl
      · exact hsorted.1 a ha

theorem retryAfterMs_of_room (hroom : (s.active limiter).length < limiter.max) :
    limiter.retryAfterMs s.now s.attempts = 0 := by
  unfold LoginRateLimiter.retryAfterMs
  unfold active at hroom
  cases hattempts : s.attempts with
  | none => rfl
  | some attempts =>
    rw [hattempts] at hroom
    exact if_pos hroom

theorem Lock.refuse (h : Lock limiter n s) (hpos : 0 < limiter.max) :
    Lock limiter n { s with
      entries := s.entries ++ [.refused s.now (limiter.retryAfterMs s.now s.attempts)] } := by
  have hstreak : streak (s.entries ++ [.refused s.now (limiter.retryAfterMs s.now s.attempts)]) =
      streak s.entries := by
    rw [streak_append _ (by simp)]
    exact List.append_nil _
  constructor
  case known => exact h.known.trans (congrArg _ hstreak.symm)
  case past =>
    dsimp only
    rw [hstreak]
    exact h.past
  case sorted =>
    dsimp only
    rw [hstreak]
    exact h.sorted
  case armed => exact h.armed
  case inside =>
    rw [passes_append, ends_append, h.inside]
    rfl
  case bound => exact h.bound
  case few => exact h.few_quiet rfl
  case locked =>
    intro t r hmem hnow
    rcases List.mem_append.mp hmem with hold | hnew
    · exact h.locked t r hold hnow
    · cases List.mem_singleton.mp hnew
      dsimp only at hnow
      have hlen : limiter.max ≤ (s.active limiter).length := by
        by_contra hshort
        have hzero := retryAfterMs_of_room (not_le.mp hshort)
        omega
      obtain ⟨hsome, oldest, -, hall, hretry⟩ := h.oldest hpos hlen
      refine ⟨hlen, hsome, fun a ha => ?_⟩
      have hold : oldest ≤ a := hall a ha
      omega
  case released =>
    intro before t r after heq hnone hlen
    rcases List.eq_nil_or_concat after with rfl | ⟨after, x, rfl⟩
    · obtain ⟨-, hlast⟩ := List.append_inj' heq rfl
      cases hlast
      obtain ⟨-, oldest, hmem, -, hretry⟩ := h.oldest hpos hlen
      refine ⟨oldest, hmem, ?_⟩
      omega
    · rw [List.concat_eq_append, ← List.cons_append, ← List.append_assoc] at heq
      obtain ⟨hold, -⟩ := List.append_inj' heq rfl
      refine h.released before t r after hold (fun t' hmem => hnone t' ?_) hlen
      rw [List.concat_eq_append]
      exact List.mem_append_left _ hmem

theorem Lock.fail (h : Lock limiter (n + 1) s) : Lock limiter n { s with
    attempts := LoginRateLimiter.recordFailure s.now s.attempts
    entries := s.entries ++ [.failed s.now] } := by
  have hstreak : streak (s.entries ++ [.failed s.now]) = streak s.entries ++ [s.now] := by
    rw [streak_append _ (by simp)]
    rfl
  have hbound := h.bound
  have hactive : Counter.active limiter { s with
      attempts := LoginRateLimiter.recordFailure s.now s.attempts
      entries := s.entries ++ [.failed s.now] } =
      s.active limiter ++ inWindow limiter.windowMs s.now [s.now] := inWindow_append
  have hone : (inWindow limiter.windowMs s.now [s.now]).length ≤ 1 := List.length_filter_le _ _
  constructor
  case known =>
    rw [hactive]
    dsimp only
    rw [hstreak, inWindow_append, h.known]
  case past =>
    dsimp only
    rw [hstreak]
    intro t ht
    rcases List.mem_append.mp ht with ht | ht
    · exact h.past t ht
    · exact (List.mem_singleton.mp ht).le
  case sorted =>
    dsimp only
    rw [hstreak, List.pairwise_append]
    refine ⟨h.sorted, List.pairwise_singleton _ _, fun t ht t' ht' => ?_⟩
    rw [List.mem_singleton.mp ht']
    exact h.past t ht
  case armed => exact fun _ => by omega
  case inside =>
    have hinside := h.inside
    rw [passes_append, ends_append]
    show passes s.entries + 0 = ends s.entries + 1 + n
    omega
  case bound =>
    rw [hactive, List.length_append]
    omega
  case few =>
    refine stretch_append (fun _ a => Nat.zero_le _) h.few fun before middle heq hnot a => ?_
    have hfresh : .succeeded ∉ middle := fun hmem => hnot (List.mem_append_left _ hmem)
    have hfew := h.few before middle [] (by rw [List.append_nil]; exact heq) hfresh a
    rw [failures_append, within, List.filter_append, List.length_append]
    show (within a _ (failures middle)).length + (([s.now]).filter _).length ≤ _
    by_cases hin : a ≤ s.now ∧ s.now < a + limiter.windowMs
    · -- those that are near the new failure are in its window
      have hnear : (within a limiter.windowMs (failures middle)).length ≤
          (s.active limiter).length := by
        have hsub : (within a limiter.windowMs (failures middle)).Sublist
            (inWindow limiter.windowMs s.now (failures middle)) := by
          refine List.monotone_filter_right _ fun t ht => ?_
          have hrange := of_decide_eq_true ht
          exact decide_eq_true (by omega)
        rw [h.known, heq, streak_append _ hfresh, inWindow_append, List.length_append]
        exact hsub.length_le.trans (Nat.le_add_left _ _)
      have hlast : (([s.now]).filter fun t => decide (a ≤ t ∧ t < a + limiter.windowMs)).length ≤
          1 := List.length_filter_le _ _
      omega
    · rw [List.filter_cons_of_neg (by simpa using hin)]
      exact hfew
  case locked =>
    intro t r hmem hnow
    have hold : Outcome.refused t r ∈ s.entries :=
      (List.mem_append.mp hmem).resolve_right (by simp)
    have hlen := (h.locked t r hold hnow).1
    omega
  case released =>
    intro before t r after heq hnone
    obtain ⟨after, rfl, hold⟩ := split_append heq (by simp)
    exact absurd (List.mem_append_right _ (List.mem_singleton_self _)) (hnone s.now)

theorem Lock.succeed (h : Lock limiter (n + 1) s) :
    Lock limiter n { s with attempts := none, entries := s.entries ++ [.succeeded] } := by
  have hstreak : streak (s.entries ++ [.succeeded]) = [] := by
    rw [streak, List.foldl_append]
    rfl
  have hbound := h.bound
  constructor
  case known =>
    dsimp only
    rw [hstreak]
    rfl
  case past =>
    dsimp only
    rw [hstreak]
    exact fun t ht => by cases ht
  case sorted =>
    dsimp only
    rw [hstreak]
    exact .nil
  case armed => exact fun hsome => by cases hsome
  case inside =>
    have hinside := h.inside
    rw [passes_append, ends_append]
    show passes s.entries + 0 = ends s.entries + 1 + n
    omega
  case bound =>
    show 0 + n ≤ _
    omega
  case few =>
    refine stretch_append (fun _ a => Nat.zero_le _) h.few fun before middle heq hnot a => ?_
    exact absurd (List.mem_append_right _ (List.mem_singleton_self _)) hnot
  case locked =>
    intro t r hmem hnow
    have hold : Outcome.refused t r ∈ s.entries :=
      (List.mem_append.mp hmem).resolve_right (by simp)
    have hlen := (h.locked t r hold hnow).1
    omega
  case released =>
    intro before t r after heq hnone hlen
    exact absurd hlen (by show ¬ limiter.max ≤ 0; omega)

theorem Lock.move {b b' : Bool} {s' : Counter} (h : Lock limiter (n + b.toNat) s)
    (hmove : s.Move limiter b s' b')
    (hroom : b = false → b' = true → s.blocked limiter = false →
      (s.active limiter).length + n < limiter.max) : Lock limiter (n + b'.toNat) s' := by
  cases hmove with
  | wait ms => exact h.wait ms
  | pass hblocked =>
    have hpass := h.pass hblocked (hroom rfl rfl hblocked)
    exact hpass.prune
  | refuse lag hblocked =>
    have hpos := h.armed (h.blocked_iff.mp hblocked).1
    exact (h.prune.wait lag).refuse hpos
  | fail => exact Lock.fail h
  | succeed => exact Lock.succeed h

end Moves

end Counter

/-! ## Where a login is -/

open Counter

namespace LocalProvider

variable (provider : LocalProvider) (k : String)

def view (w : LoginWorld) : Counter where
  now := w.now
  attempts := w.windows k
  entries := (w.log.filter (·.1 = k)).map Prod.snd

def counts (input : LocalLoginInput) : Bool := provider.key input.ip input.user = k

inductive Place : Bool → Prog LoginWorld Unit → Prop
  | done {prog : Prog LoginWorld Unit} (hdone : prog.finished = true) : Place false prog
  | begin (op : LoginOp) : Place false (provider.code op)
  | lookup (input : LocalLoginInput) : Place (provider.counts k input)
      ((Prog.read (·.users.findByLogin input.user) >>= provider.fallback input) >>= fun _ => pure ())
  | fallback (input : LocalLoginInput) (candidate : Option LoginUser) :
      Place (provider.counts k input) (provider.fallback input candidate >>= fun _ => pure ())
  | judge (input : LocalLoginInput) (candidate : Option LoginUser) :
      Place (provider.counts k input) (provider.judge input candidate >>= fun _ => pure ())
  | settle (input : LocalLoginInput) (user : LoginUser) (ok : Bool) :
      Place (provider.counts k input) (provider.settle input user ok >>= fun _ => pure ())

section Steps

variable {provider k} {w : LoginWorld} {f : LoginWorld → LoginWorld}
  {next : LoginWorld → Prog LoginWorld Unit} {input : LocalLoginInput} {b : Bool}

theorem view_note {k' : String} {attempts : Option (List ℤ)} {outcome : Outcome} :
    view k (note k' attempts outcome w) =
      if k' = k then { view k w with attempts, entries := (view k w).entries ++ [outcome] }
      else view k w := by
  unfold view note
  dsimp only
  rw [List.filter_append, List.map_append]
  split
  · rename_i heq
    subst heq
    simp
  · rename_i hne
    rw [Function.update_of_ne (Ne.symm hne), List.filter_cons_of_neg (by simpa using hne)]
    simp

theorem stays : (view k w).Move provider.limiter b (view k w) b := by
  have hwait := @Move.wait provider.limiter (view k w) 0 b
  rw [Int.natCast_zero, Int.add_zero] at hwait
  exact hwait

theorem note_move {attempts : Option (List ℤ)} {outcome : Outcome}
    (h : provider.key input.ip input.user = k → (view k w).Move provider.limiter true
      { view k w with attempts, entries := (view k w).entries ++ [outcome] } false) :
    (view k w).Move provider.limiter (provider.counts k input)
      (view k (note (provider.key input.ip input.user) attempts outcome w)) false := by
  rw [view_note]
  split
  · rename_i heq
    rw [counts, decide_eq_true heq]
    exact h heq
  · rename_i hne
    rw [counts, decide_eq_false hne]
    exact stays

theorem fail_step (h : (provider.fail input >>= fun _ => pure ()) = .sect f next) :
    (next w).finished = true ∧
      (view k w).Move provider.limiter (provider.counts k input) (view k (f w)) false := by
  cases h
  refine ⟨rfl, note_move fun heq => ?_⟩
  rw [heq]
  exact .fail

theorem settle_step {user : LoginUser} {ok : Bool}
    (h : (provider.settle input user ok >>= fun _ => pure ()) = .sect f next) :
    (next w).finished = true ∧
      (view k w).Move provider.limiter (provider.counts k input) (view k (f w)) false := by
  cases ok with
  | false => exact fail_step h
  | true =>
    cases h
    exact ⟨rfl, note_move fun _ => .succeed⟩

theorem judge_step {candidate : Option LoginUser}
    (h : (provider.judge input candidate >>= fun _ => pure ()) = .sect f next) :
    ∃ b', provider.Place k b' (next w) ∧
      (view k w).Move provider.limiter (provider.counts k input) (view k (f w)) b' ∧
      (provider.counts k input = false → b' = false) := by
  have hfail : (provider.fail input >>= fun _ => pure ()) = .sect f next →
      ∃ b', provider.Place k b' (next w) ∧
        (view k w).Move provider.limiter (provider.counts k input) (view k (f w)) b' ∧
        (provider.counts k input = false → b' = false) := by
    intro h
    obtain ⟨hdone, hmove⟩ := fail_step (w := w) (k := k) h
    exact ⟨false, .done hdone, hmove, fun _ => rfl⟩
  unfold judge at h
  split at h
  · exact hfail h
  · rename_i user
    split at h
    · exact hfail h
    · split at h
      · exact hfail h
      · split at h
        · exact hfail h
        · rename_i stored _
          split at h
          · exact hfail h
          · cases h
            exact ⟨_, .settle input user (provider.verifyPassword input.password stored), stays, id⟩

theorem login_step {lag : ℕ} (h : provider.code (.login input lag) = .sect f next) :
    f w = (provider.enter input lag w).2 ∧
      next w = match (provider.enter input lag w).1 with
        | .ok _ => (Prog.read (·.users.findByLogin input.user) >>= provider.fallback input) >>=
            fun _ => pure ()
        | .error e => .fail e := by
  cases h
  refine ⟨rfl, ?_⟩
  dsimp only
  cases (provider.enter input lag w).1 <;> rfl

theorem enter_cases (provider : LocalProvider) (input : LocalLoginInput) (lag : ℕ)
    (w : LoginWorld) :
    let k := provider.key input.ip input.user
    let check := provider.limiter.isBlocked w.now (w.windows k)
    (∃ e, provider.enter input lag w = (.error e, w)) ∨
    (check.1 = true ∧ ∃ e, provider.enter input lag w = (.error e,
      note k check.2 (.refused (w.now + lag) (provider.limiter.retryAfterMs (w.now + lag) check.2))
        { w with now := w.now + lag })) ∨
    (check.1 = false ∧ input.user ≠ "" ∧ input.password ≠ "" ∧
      provider.enter input lag w = (.ok (), note k check.2 .passed w)) := by
  intro k check
  unfold enter
  split
  · exact Or.inl ⟨_, rfl⟩
  · rename_i hnames
    rw [not_or] at hnames
    refine Or.inr ?_
    cases hblocked : check.1 with
    | true =>
      exact Or.inl ⟨rfl, "too many login attempts", if_pos hblocked⟩
    | false =>
      refine Or.inr ⟨rfl, hnames.1, hnames.2, ?_⟩
      exact if_neg ((Bool.not_eq_true _).mpr hblocked)

theorem enter_step {lag : ℕ} (h : provider.code (.login input lag) = .sect f next) :
    ∃ b', provider.Place k b' (next w) ∧ (view k w).Move provider.limiter false (view k (f w)) b' ∧
      (b' = true →
        provider.key input.ip input.user = k ∧ input.user ≠ "" ∧ input.password ≠ "") := by
  obtain ⟨hf, hnext⟩ := login_step (w := w) h
  rw [hf, hnext]
  rcases enter_cases provider input lag w with ⟨e, henter⟩ | ⟨hblocked, e, henter⟩ |
    ⟨hblocked, huser, hpassword, henter⟩
  · rw [henter]
    exact ⟨false, .done rfl, stays, fun hpast => by cases hpast⟩
  · rw [henter]
    refine ⟨false, .done rfl, ?_, fun hpast => by cases hpast⟩
    dsimp only
    rw [view_note]
    split
    · rename_i heq
      subst heq
      exact .refuse lag hblocked
    · exact .wait lag false
  · rw [henter]
    refine ⟨_, .lookup input, ?_, fun htrue => ⟨of_decide_eq_true htrue, huser, hpassword⟩⟩
    dsimp only
    rw [view_note]
    split
    · rename_i heq
      rw [counts, decide_eq_true heq]
      subst heq
      exact .pass hblocked
    · rename_i hne
      rw [counts, decide_eq_false hne]
      exact stays

theorem place_step {prog : Prog LoginWorld Unit} (hplace : provider.Place k b prog)
    (h : prog = .sect f next) (w : LoginWorld) : ∃ b', provider.Place k b' (next w) ∧
      (view k w).Move provider.limiter b (view k (f w)) b' ∧
      (b = false → b' = true → ∃ input lag, prog = provider.code (.login input lag) ∧
        provider.key input.ip input.user = k ∧ input.user ≠ "" ∧ input.password ≠ "") := by
  cases hplace with
  | done hdone =>
    rw [h] at hdone
    cases hdone
  | begin op =>
    cases op with
    | tick ms =>
      cases h
      exact ⟨false, .done rfl, .wait ms false, fun _ hpast => by cases hpast⟩
    | edit users =>
      cases h
      exact ⟨false, .done rfl, stays, fun _ hpast => by cases hpast⟩
    | login input lag =>
      obtain ⟨b', hplace, hmove, hpassed⟩ := enter_step (k := k) (w := w) h
      exact ⟨b', hplace, hmove, fun _ htrue => ⟨input, lag, rfl, hpassed htrue⟩⟩
  | lookup input =>
    cases h
    refine ⟨_, .fallback input (w.users.findByLogin input.user), stays, fun hb hb' => ?_⟩
    rw [hb] at hb'
    cases hb'
  | fallback input candidate =>
    cases candidate with
    | some user =>
      have hjudge : (provider.judge input (some user) >>= fun _ => pure ()) = .sect f next := h
      obtain ⟨b', hplace, hmove, hb⟩ := judge_step (k := k) (w := w) hjudge
      refine ⟨b', hplace, hmove, fun hfalse htrue => ?_⟩
      rw [hb hfalse] at htrue
      cases htrue
    | none =>
      cases h
      refine ⟨_, .judge input (w.users.findByEmail input.user), stays, fun hb hb' => ?_⟩
      rw [hb] at hb'
      cases hb'
  | judge input candidate =>
    obtain ⟨b', hplace, hmove, hb⟩ := judge_step (k := k) (w := w) h
    refine ⟨b', hplace, hmove, fun hfalse htrue => ?_⟩
    rw [hb hfalse] at htrue
    cases htrue
  | settle input user ok =>
    obtain ⟨hdone, hmove⟩ := settle_step (w := w) (k := k) h
    exact ⟨false, .done hdone, hmove, fun _ hpast => by cases hpast⟩

end Steps

/-! ## Runs -/

def inside (k : String) (w : LoginWorld) : ℕ :=
  passes (view k w).entries - ends (view k w).entries

/-- A login of the key that is about to pass the check leaves the limit room for those before it:
the failures in the window and the logins past the check are fewer than the limit. -/
def Room (provider : LocalProvider) (k : String) (c : Config LoginWorld LoginOp Unit)
    (l : Label LoginOp) : Prop :=
  ∀ i th input lag, l = .step i → c.threads[i]? = some th →
    th.prog = provider.code (.login input lag) →
    provider.key input.ip input.user = k → input.user ≠ "" → input.password ≠ "" →
    (view k c.st).blocked provider.limiter = false →
    ((view k c.st).active provider.limiter).length + inside k c.st < provider.limiter.max

/-- At most the limit of failures in any half-open window without a success, and a refusal blocks
until its time is over, and no longer unless there is another failure. -/
structure LockedOut (limiter : LoginRateLimiter) (s : Counter) : Prop where
  few : ∀ before middle after, s.entries = before ++ middle ++ after → .succeeded ∉ middle →
    ∀ a, (within a limiter.windowMs (failures middle)).length ≤ limiter.max
  stays : ∀ t r, .refused t r ∈ s.entries → s.now < t + r → s.blocked limiter = true
  ends : ∀ before t r after, s.entries = before ++ .refused t r :: after →
    (∀ t', .failed t' ∉ after) → t + r ≤ s.now → s.blocked limiter = false

theorem lockedOut_of_lock {limiter : LoginRateLimiter} {n : ℕ} {s : Counter}
    (h : Lock limiter n s) : LockedOut limiter s where
  few := h.few
  stays t r hmem hnow := by
    obtain ⟨hlen, hsome, -⟩ := h.locked t r hmem hnow
    exact h.blocked_iff.mpr ⟨hsome, hlen⟩
  ends before t r after heq hnone hnow := by
    by_contra hblocked
    rw [Bool.not_eq_false, h.blocked_iff] at hblocked
    obtain ⟨a, ha, hearly⟩ := h.released before t r after heq hnone hblocked.2
    have hlate := (mem_inWindow.mp ha).2
    omega

def Standing (provider : LocalProvider) (k : String) (c : Config LoginWorld LoginOp Unit) : Prop :=
  ∃ past : List Bool, List.Forall₂ (fun th b => provider.Place k b th.prog) c.threads past ∧
    Lock provider.limiter (past.count true) (view k c.st)

section Runs

variable {provider : LocalProvider} {k : String} {c c' : Config LoginWorld LoginOp Unit}
  {l : Label LoginOp}

theorem forall₂_getElem {α β : Type} {R : α → β → Prop} {as : List α} {bs : List β}
    (h : List.Forall₂ R as bs) {i : ℕ} {a : α} (ha : as[i]? = some a) :
    ∃ b, bs[i]? = some b ∧ R a b := by
  induction h generalizing i with
  | nil => cases ha
  | cons hab _ ih =>
    cases i with
    | zero =>
      cases ha
      exact ⟨_, rfl, hab⟩
    | succ i => exact ih ha

theorem forall₂_set {α β : Type} {R : α → β → Prop} {as : List α} {bs : List β} {a : α} {b : β}
    (h : List.Forall₂ R as bs) (hab : R a b) (i : ℕ) :
    List.Forall₂ R (as.set i a) (bs.set i b) := by
  induction h generalizing i with
  | nil => exact .nil
  | cons hfirst hrest ih =>
    cases i with
    | zero => exact .cons hab hrest
    | succ i => exact .cons hfirst (ih i)

theorem count_split {past : List Bool} {i : ℕ} {b : Bool} (h : past[i]? = some b) :
    ∃ others, past.count true = others + b.toNat ∧
      ∀ b', (past.set i b').count true = others + b'.toNat := by
  induction past generalizing i with
  | nil => cases h
  | cons first rest ih =>
    cases i with
    | zero =>
      cases h
      refine ⟨rest.count true, ?_, fun b' => ?_⟩
      · cases b <;> simp
      · cases b' <;> simp
    | succ i =>
      obtain ⟨others, hcount, hset⟩ := ih h
      refine ⟨others + first.toNat, ?_, fun b' => ?_⟩
      · cases first <;> simp [hcount]
        omega
      · cases first <;> simp [hset]
        omega

theorem standing_next (h : Standing provider k c) (hroom : Room provider k c l)
    (hn : c.next provider.code l = some c') : Standing provider k c' := by
  obtain ⟨past, hthreads, hlock⟩ := h
  cases l with
  | start op =>
    obtain ⟨hst, hth⟩ := Config.next_start hn
    refine ⟨past ++ [false], ?_, ?_⟩
    · rw [hth]
      exact List.rel_append hthreads (.cons (.begin op) .nil)
    · rw [hst, List.count_append]
      exact hlock
  | step i =>
    obtain ⟨op, f, next, hi, hst, hth⟩ := Config.next_step hn
    obtain ⟨b, hb, hplace⟩ := forall₂_getElem hthreads hi
    obtain ⟨others, hcount, hset⟩ := count_split hb
    rw [hcount] at hlock
    obtain ⟨b', hplace', hmove, hpass⟩ := place_step hplace rfl c.st
    refine ⟨past.set i b', ?_, ?_⟩
    · rw [hth]
      exact forall₂_set hthreads hplace' i
    · rw [hset, hst]
      refine hlock.move hmove fun hfalse htrue hblocked => ?_
      obtain ⟨input, lag, hprog, hkey, huser, hpassword⟩ := hpass hfalse htrue
      have hplaces := hroom i _ input lag rfl hi hprog hkey huser hpassword hblocked
      have hinside := hlock.inside
      subst hfalse
      unfold inside at hplaces
      rw [hinside, Nat.add_sub_cancel_left] at hplaces
      exact hplaces

end Runs

/-- **Lockout.** In every run from an empty limiter whose logins of a key leave room when they pass
the check, the key is locked out as it should. -/
theorem lockedOut_of_room (provider : LocalProvider) (k : String) (users : UserRepository) (now : ℤ)
    {c : Config LoginWorld LoginOp Unit}
    (h : Run provider.code (Room provider k)
      ⟨{ windows := fun _ => none, users := users, now := now }, []⟩ c) :
    LockedOut provider.limiter (view k c.st) := by
  have hstanding : Standing provider k c := by
    induction h with
    | init =>
      refine ⟨[], .nil, ⟨rfl, ?_, .nil, ?_, rfl, Nat.zero_le _, ?_, ?_, ?_⟩⟩
      · exact fun t ht => by cases ht
      · exact fun hsome => by cases hsome
      · intro before middle after heq _ a
        obtain ⟨hfront, -⟩ := List.append_eq_nil_iff.mp heq.symm
        obtain ⟨-, rfl⟩ := List.append_eq_nil_iff.mp hfront
        exact Nat.zero_le _
      · exact fun t r hmem => by cases hmem
      · intro before t r after heq
        cases before <;> cases heq
    | tail l _ hroom hn ih => exact standing_next ih hroom hn
  obtain ⟨past, -, hlock⟩ := hstanding
  exact lockedOut_of_lock hlock

section Logins

def strict : LocalProvider := { limiter := {}, toLowerCase := id, verifyPassword := fun _ _ => false }

def oneUser : UserRepository where
  findByLogin _ := some
    { id := "u1", isDisabled := false, isServiceAccount := false, password := some "salt:hash" }
  findByEmail _ := none

def guess : LoginOp := .login { user := "alice", password := "guess", ip := "10.0.0.1" } 0

/-- A guess that fails while another is on its way. -/
theorem lockedOut_two : ∃ c, Run strict.code (Room strict "10.0.0.1|alice")
      ⟨{ windows := fun _ => none, users := oneUser, now := 0 }, []⟩ c ∧
    LockedOut strict.limiter (view "10.0.0.1|alice" c.st) ∧
    (view "10.0.0.1|alice" c.st).entries = [.passed, .passed, .failed 0] := by
  obtain ⟨c, hexec⟩ : ∃ c, Config.exec strict.code
      ⟨{ windows := fun _ => none, users := oneUser, now := 0 }, []⟩
      [.start guess, .start guess, .step 0, .step 1, .step 0, .step 0, .step 0] = some c := ⟨_, rfl⟩
  have hrun : Run strict.code (Room strict "10.0.0.1|alice")
      ⟨{ windows := fun _ => none, users := oneUser, now := 0 }, []⟩ c := by
    refine Run.of_exec .init ?_ hexec
    iterate 7
      refine ⟨fun i th input lag _ _ _ _ _ _ _ => by decide +kernel, ?_⟩
      rintro c' ⟨⟩
    trivial
  refine ⟨c, hrun, lockedOut_of_room strict _ _ _ hrun, ?_⟩
  cases hexec
  decide +kernel

/-- Six guesses at the same time all pass the check, and all fail. -/
theorem six_guesses : ¬ ∀ c, Run strict.code (fun _ _ => True)
      ⟨{ windows := fun _ => none, users := oneUser, now := 0 }, []⟩ c →
    LockedOut strict.limiter (view "10.0.0.1|alice" c.st) := by
  intro hall
  obtain ⟨c, hexec⟩ : ∃ c, Config.exec strict.code
      ⟨{ windows := fun _ => none, users := oneUser, now := 0 }, []⟩
      (List.replicate 6 (.start guess) ++ (List.range 6).map .step ++ (List.range 6).map .step ++
        (List.range 6).map .step ++ (List.range 6).map .step) = some c := ⟨_, rfl⟩
  have hfew := (hall c (Run.of_exec .init (allOk_of_forall (fun _ _ => trivial) _ _) hexec)).few []
    (view "10.0.0.1|alice" c.st).entries [] (by simp)
  cases hexec
  exact absurd (hfew (by decide +kernel) 0) (by decide +kernel)

end Logins

end LocalProvider

end OpenObs.Auth
