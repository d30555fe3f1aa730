import OpenObs.Foundation.Async
import OpenObs.Foundation.Clock

/-!
# Logins with a password

`auth/local-provider.ts`: a login is checked against the failures of its address and name in a
sliding window, the user is looked up, the password is verified, and a failure is recorded or
the window is cleared.
-/

namespace OpenObs.Auth

open OpenObs.Foundation

/-! ## The rate limiter -/

def RATE_LIMIT_MAX : ℕ := 5

def RATE_LIMIT_WINDOW_MS : ℤ := 5 * 60 * 1000

structure LoginRateLimiter where
  max : ℕ := RATE_LIMIT_MAX
  windowMs : ℤ := RATE_LIMIT_WINDOW_MS

abbrev Windows := String → Option (List ℤ)

namespace LoginRateLimiter

variable (limiter : LoginRateLimiter)

def isBlocked (now : ℤ) : Option (List ℤ) → Bool × Option (List ℤ)
  | none => (false, none)
  | some attempts =>
    let attempts := inWindow limiter.windowMs now attempts
    (decide (limiter.max ≤ attempts.length), if attempts.length = 0 then none else some attempts)

def retryAfterMs (now : ℤ) : Option (List ℤ) → ℤ
  | none => 0
  | some attempts =>
    let active := inWindow limiter.windowMs now attempts
    if active.length < limiter.max then 0
    else
      match active.head? with
      | none => 0
      | some oldest => Max.max 0 (oldest + limiter.windowMs - now)

def recordFailure (now : ℤ) (attempts : Option (List ℤ)) : Option (List ℤ) :=
  some (attempts.getD [] ++ [now])

end LoginRateLimiter

/-! ## The provider -/

structure LoginUser where
  id : String
  isDisabled : Bool
  isServiceAccount : Bool
  password : Option String

structure UserRepository where
  findByLogin : String → Option LoginUser
  findByEmail : String → Option LoginUser

structure LocalProvider where
  limiter : LoginRateLimiter
  toLowerCase : String → String
  verifyPassword : String → String → Bool

structure LocalLoginInput where
  user : String
  password : String
  ip : String

inductive Outcome : Type where
  | passed
  | refused (now retryAfterMs : ℤ)
  | failed (now : ℤ)
  | succeeded
deriving DecidableEq

structure LoginWorld where
  windows : Windows
  users : UserRepository
  now : ℤ
  log : List (String × Outcome) := []

namespace LocalProvider

variable (provider : LocalProvider)

def key (ip userLogin : String) : String := ip ++ "|" ++ provider.toLowerCase userLogin

def invalidCredentials : String := "invalid username or password"

def note (k : String) (attempts : Option (List ℤ)) (outcome : Outcome) (w : LoginWorld) :
    LoginWorld :=
  { w with windows := Function.update w.windows k attempts, log := w.log ++ [(k, outcome)] }

def enter (input : LocalLoginInput) (lag : ℕ) (w : LoginWorld) : Except String Unit × LoginWorld :=
  if input.user = "" ∨ input.password = "" then (.error invalidCredentials, w)
  else
    let k := provider.key input.ip input.user
    let (blocked, attempts) := provider.limiter.isBlocked w.now (w.windows k)
    if blocked then
      let now := w.now + lag
      let retryAfterMs := provider.limiter.retryAfterMs now attempts
      (.error "too many login attempts",
        note k attempts (.refused now retryAfterMs) { w with now := now })
    else (.ok (), note k attempts .passed w)

def recordFailure (input : LocalLoginInput) (w : LoginWorld) : LoginWorld :=
  let k := provider.key input.ip input.user
  note k (LoginRateLimiter.recordFailure w.now (w.windows k)) (.failed w.now) w

def reset (input : LocalLoginInput) (w : LoginWorld) : LoginWorld :=
  note (provider.key input.ip input.user) none .succeeded w

def fail (input : LocalLoginInput) : Prog LoginWorld LoginUser := do
  Prog.write (provider.recordFailure input)
  throw invalidCredentials

def settle (input : LocalLoginInput) (user : LoginUser) (ok : Bool) :
    Prog LoginWorld LoginUser :=
  if ok then do
    Prog.write (provider.reset input)
    pure user
  else provider.fail input

def judge (input : LocalLoginInput) (candidate : Option LoginUser) : Prog LoginWorld LoginUser :=
  match candidate with
  | none => provider.fail input
  | some user =>
    if user.isDisabled then provider.fail input
    else if user.isServiceAccount then provider.fail input
    else
      match user.password with
      | none => provider.fail input
      | some stored =>
        if stored = "" then provider.fail input
        else do
          let ok ← Prog.read fun _ => provider.verifyPassword input.password stored
          provider.settle input user ok

def fallback (input : LocalLoginInput) (candidate : Option LoginUser) :
    Prog LoginWorld LoginUser :=
  match candidate with
  | some user => provider.judge input (some user)
  | none => do
      let candidate ← Prog.read (·.users.findByEmail input.user)
      provider.judge input candidate

def login (input : LocalLoginInput) (lag : ℕ) : Prog LoginWorld LoginUser := do
  Prog.attempt (provider.enter input lag)
  let candidate ← Prog.read (·.users.findByLogin input.user)
  provider.fallback input candidate

end LocalProvider

inductive LoginOp : Type where
  | login (input : LocalLoginInput) (lag : ℕ)
  | tick (ms : ℕ)
  | edit (users : UserRepository)

def LocalProvider.code (provider : LocalProvider) : LoginOp → Prog LoginWorld Unit
  | .login input lag => provider.login input lag >>= fun _ => pure ()
  | .tick ms => Prog.write fun w => { w with now := w.now + ms }
  | .edit users => Prog.write fun w => { w with users := users }

end OpenObs.Auth
