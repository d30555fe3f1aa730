import OpenObs.Foundation.Clock

/-!
# Sessions

`auth/session-service.ts` over `repository/auth/user-auth-token-repository.ts`. A
session is a row with the hashes of its current token and of the one before it, and
four dates that the calls move. A call reads the clock in the service and once more in
the repository.
-/

namespace OpenObs.Auth

open OpenObs.Foundation

/-! ## The repository -/

structure UserAuthToken where
  id : String
  userId : String
  authToken : String
  prevAuthToken : String
  userAgent : String
  clientIp : String
  authTokenSeen : Bool
  seenAt : Option ℤ
  rotatedAt : ℤ
  createdAt : ℤ
  updatedAt : ℤ
  revokedAt : Option ℤ
deriving DecidableEq

abbrev Table := List UserAuthToken

namespace Table

def findById (t : Table) (id : String) : Option UserAuthToken := t.find? (·.id = id)

/-- `INSERT`, under the primary key and the unique index on `auth_token`, and the row read
back. -/
def create (t : Table) (row : UserAuthToken) : Except String (UserAuthToken × Table) :=
  if t.any fun r => r.id = row.id ∨ r.authToken = row.authToken then
    .error "UNIQUE constraint failed"
  else
    match Table.findById (t ++ [row]) row.id with
    | some found => .ok (found, t ++ [row])
    | none => .error "create failed"

def findByHashedToken (t : Table) (hashedToken : String) : Option UserAuthToken :=
  t.find? fun r => r.revokedAt = none ∧ (r.authToken = hashedToken ∨ r.prevAuthToken = hashedToken)

/-- `UPDATE … WHERE id = …`. -/
def update (t : Table) (id : String) (set : UserAuthToken → UserAuthToken) : Table :=
  t.map fun r => if r.id = id then set r else r

def rotate (t : Table) (id newHashedToken : String) (rotatedAt now : ℤ) :
    Except String (Option UserAuthToken × Table) :=
  match t.findById id with
  | none => .ok (none, t)
  | some existing =>
    if existing.revokedAt ≠ none then .ok (none, t)
    else if t.any fun r => r.id ≠ id ∧ r.authToken = newHashedToken then
      .error "UNIQUE constraint failed"
    else
      let t' := t.update id fun r =>
        { r with prevAuthToken := r.authToken, authToken := newHashedToken,
                 rotatedAt := rotatedAt, updatedAt := now }
      .ok (t'.findById id, t')

def markSeen (t : Table) (id : String) (seenAt now : ℤ) : Table :=
  t.update id fun r => { r with authTokenSeen := true, seenAt := some seenAt, updatedAt := now }

def revoke (t : Table) (id : String) (revokedAt now : ℤ) : Table :=
  t.update id fun r => { r with revokedAt := some revokedAt, updatedAt := now }

def revokeAllForUser (t : Table) (userId : String) (revokedAt now : ℤ) : ℕ × Table :=
  (t.countP fun r => r.userId = userId ∧ r.revokedAt = none,
    t.map fun r =>
      if r.userId = userId ∧ r.revokedAt = none then
        { r with revokedAt := some revokedAt, updatedAt := now }
      else r)

def deleteExpired (t : Table) (before : ℤ) : ℕ × Table :=
  (t.countP (·.createdAt < before), t.filter fun r => !decide (r.createdAt < before))

end Table

/-! ## The service -/

structure SessionService where
  sha256 : String → String
  maxLifetimeMs : ℚ := 30 * 24 * 60 * 60 * 1000
  idleTimeoutMs : ℚ := 7 * 24 * 60 * 60 * 1000
  rotationIntervalMs : ℚ := 10 * 60 * 1000
  rotationGraceMs : ℚ := 30 * 1000

structure Clock where
  now : ℤ
  nowIso : ℤ

structure IssuedSession where
  token : String
  row : UserAuthToken

def SESSION_TOKEN_PREFIX : String := "openobs_s_"

def generateSessionToken (bytes : String) : String := SESSION_TOKEN_PREFIX ++ bytes

namespace SessionService

variable (svc : SessionService)

def hashSessionToken (plaintext : String) : String := svc.sha256 plaintext

def create (k : Clock) (id bytes userId userAgent clientIp : String) (t : Table) :
    Except String (IssuedSession × Table) :=
  let token := generateSessionToken bytes
  let row : UserAuthToken :=
    { id := id, userId := userId, authToken := svc.hashSessionToken token, prevAuthToken := "",
      userAgent := userAgent, clientIp := clientIp, authTokenSeen := false, seenAt := none,
      rotatedAt := k.now, createdAt := k.now, updatedAt := k.now, revokedAt := none }
  (t.create row).map fun (found, t') => (⟨token, found⟩, t')

/-- The checks of `lookupByToken` on the row it has found. -/
def validate (now : ℤ) (hashed : String) (row : UserAuthToken) : Option UserAuthToken :=
  if row.revokedAt ≠ none then none
  -- Max lifetime from creation.
  else if svc.maxLifetimeMs < (now - row.createdAt : ℤ) then none
  else
    -- Idle timeout since last update (seen or rotated).
    let lastTouched := max row.updatedAt (max row.rotatedAt row.createdAt)
    if 0 < lastTouched ∧ svc.idleTimeoutMs < (now - lastTouched : ℤ) then none
    -- The previous token counts within the grace window only.
    else if row.prevAuthToken ≠ "" ∧ row.prevAuthToken = hashed ∧
        svc.rotationGraceMs < (now - row.rotatedAt : ℤ) then none
    else some row

def lookupByToken (now : ℤ) (rawToken : String) (t : Table) : Option UserAuthToken :=
  if rawToken = "" then none
  else (t.findByHashedToken (svc.hashSessionToken rawToken)).bind
    (svc.validate now (svc.hashSessionToken rawToken))

def shouldRotate (now : ℤ) (row : UserAuthToken) : Bool :=
  decide (svc.rotationIntervalMs ≤ (now - row.rotatedAt : ℤ))

def rotate (k : Clock) (id bytes : String) (t : Table) :
    Except String (Option IssuedSession × Table) :=
  let newToken := generateSessionToken bytes
  (t.rotate id (svc.hashSessionToken newToken) k.now k.nowIso).map fun (row, t') =>
    (row.map (⟨newToken, ·⟩), t')

def markSeen (k : Clock) (id : String) (seen : Option ℤ) (t : Table) : Table :=
  t.markSeen id (seen.getD k.now) k.nowIso

def revoke (k : Clock) (id : String) (t : Table) : Table := t.revoke id k.now k.nowIso

def revokeAllForUser (k : Clock) (userId : String) (t : Table) : ℕ × Table :=
  t.revokeAllForUser userId k.now k.nowIso

def pruneExpired (k : Clock) (t : Table) : ℕ × Table :=
  t.deleteExpired (timeClip (k.now - svc.maxLifetimeMs))

end SessionService

/-! ## Calls -/

inductive Call : Type where
  | create (id bytes userId userAgent clientIp : String)
  | rotate (id bytes : String)
  | markSeen (id : String) (seen : Option ℤ)
  | revoke (id : String)
  | revokeAllForUser (userId : String)
  | pruneExpired
  | lookupByToken (rawToken : String)

inductive Answer : Type where
  | issued (session : Option IssuedSession)
  | done
  | count (n : ℕ)
  | found (row : Option UserAuthToken)
  | failed (e : String)

def serve (svc : SessionService) (k : Clock) (t : Table) : Call → Answer × Table
  | .create id bytes userId userAgent clientIp =>
    match svc.create k id bytes userId userAgent clientIp t with
    | .ok (session, t') => (.issued (some session), t')
    | .error e => (.failed e, t)
  | .rotate id bytes =>
    match svc.rotate k id bytes t with
    | .ok (session, t') => (.issued session, t')
    | .error e => (.failed e, t)
  | .markSeen id seen => (.done, SessionService.markSeen k id seen t)
  | .revoke id => (.done, SessionService.revoke k id t)
  | .revokeAllForUser userId =>
    (.count (SessionService.revokeAllForUser k userId t).1,
      (SessionService.revokeAllForUser k userId t).2)
  | .pruneExpired => (.count (svc.pruneExpired k t).1, (svc.pruneExpired k t).2)
  | .lookupByToken rawToken => (.found (svc.lookupByToken k.now rawToken t), t)

structure Served where
  clock : Clock
  call : Call

def tableAfter (svc : SessionService) (calls : List Served) : Table :=
  calls.foldl (fun t s => (serve svc s.clock t s.call).2) []

end OpenObs.Auth
