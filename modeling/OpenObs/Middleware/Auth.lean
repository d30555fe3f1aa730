import OpenObs.Auth.Sessions
import OpenObs.Foundation.Parts
import OpenObs.Rbac.Tokens

/-!
# Who makes a request

`middleware/auth.ts`: a request is its session's if it sends a session cookie, else its bearer
token's or its API key's. A credential that comes first and fails is not made up for by a later
one.
-/

namespace OpenObs.Middleware

open OpenObs.Foundation OpenObs.Rbac
open OpenObs.Auth (SessionService)

/-! ## Requests -/

inductive FieldValue : Type where
  | text (v : String)
  | list (vs : List String)
  | object

structure HttpRequest where
  method : String
  path : String
  cookie : Option String := none
  authorization : Option String := none
  headers : String → Option FieldValue := fun _ => none
  query : String → Option FieldValue := fun _ => none

inductive Handled (α : Type) : Type where
  | next (attached : α)
  | json (status : ℕ) (code message : String)
deriving DecidableEq

/-- `||` of a string and `null`. -/
def orNull (v : String) : Option String := if v = "" then none else some v

def cookieAmong (name : String) : List String → Option String
  | [] => none
  | part :: rest =>
    let pieces := Text.split (trim part) '='
    if pieces.headD "" = name then orNull (Text.join pieces.tail '=') else cookieAmong name rest

def readCookie (cookieHeader : Option String) (name : String) : Option String :=
  match cookieHeader.bind orNull with
  | none => none
  | some header => cookieAmong name (Text.split header ';')

/-- `x-api-key`, unless it is empty. -/
def xApiKey (req : HttpRequest) : Option String :=
  match req.headers "x-api-key" with
  | some (.text v) => orNull v
  | _ => none

def bearerToken (req : HttpRequest) : Option String :=
  match req.authorization with
  | some h =>
    if Text.startsWith h "Bearer " then some (trim (Text.slice h "Bearer ".length))
    else xApiKey req
  | none => xApiKey req

/-! ## The middleware -/

def SESSION_COOKIE_NAME : String := "openobs_session"

inductive AuthenticatedBy : Type where
  | session | apiKey
deriving DecidableEq

/-- `req.auth`. -/
structure RequestAuth extends Identity where
  authenticatedBy : AuthenticatedBy
  sessionId : Option String := none
  serviceAccountId : Option String := none

/-- Without `apiKeyService` the keys are looked up in the table itself; this is for old tests. -/
structure AuthMiddlewareDeps where
  sessions : SessionService
  apiKeyService : Option TokenDeps
  sha256Hex : String → String

structure AuthReadings where
  session : ℤ
  seen : OpenObs.Auth.Clock
  key : ℕ

structure AuthWorld where
  sessions : OpenObs.Auth.Table
  db : Db

namespace AuthWorld

def tables : Part AuthWorld Db where
  get := AuthWorld.db
  set db w := { w with db := db }
  get_set _ _ := rfl
  set_get _ := rfl
  set_set _ _ _ := rfl

end AuthWorld

def sessionExpired : Handled RequestAuth := .json 401 "SESSION_EXPIRED" "session expired"

def userDisabled : Handled RequestAuth := .json 401 "USER_DISABLED" "user disabled"

def invalidApiKey : Handled RequestAuth := .json 401 "INVALID_API_KEY" "invalid api key"

def unauthorized : Handled RequestAuth := .json 401 "UNAUTHORIZED" "authentication required"

section Middleware

variable (deps : AuthMiddlewareDeps) (k : AuthReadings)

def bySession (rawSessionToken : String) : Prog AuthWorld (Handled RequestAuth) := do
  match ← Prog.read fun w => deps.sessions.lookupByToken k.session rawSessionToken w.sessions with
  | none => return sessionExpired
  | some row =>
    match ← Prog.read (·.db.findUser row.userId) with
    | none => return userDisabled
    | some user =>
      if user.isDisabled then return userDisabled
      else do
        let membership ← Prog.read (·.db.findMembership user.orgId user.id)
        Prog.write fun w =>
          { w with sessions := SessionService.markSeen k.seen row.id none w.sessions }
        return .next
          { userId := user.id
            orgId := user.orgId
            orgRole := (membership.map (·.role)).getD .none
            isServerAdmin := user.isAdmin
            authenticatedBy := .session
            sessionId := some row.id }

def ofLookup (lookup : ApiKeyLookup) : RequestAuth where
  userId := lookup.user.id
  orgId := lookup.orgId
  orgRole := lookup.role
  isServerAdmin := lookup.isServerAdmin
  authenticatedBy := .apiKey
  serviceAccountId := lookup.serviceAccountId

def byApiKey (service : TokenDeps) (token : String) : Prog AuthWorld (Handled RequestAuth) := do
  match ← (ApiKeyService.validateAndLookup service k.key token).zoom AuthWorld.tables with
  | none => return invalidApiKey
  | some lookup => return .next (ofLookup lookup)

def ofRow (row : ApiKey) (isServerAdmin : Bool) (membership : Option OrgUser) : RequestAuth where
  userId := (row.serviceAccountId.or row.ownerUserId).getD ""
  orgId := row.orgId
  orgRole := (membership.map (·.role)).getD .none
  isServerAdmin := isServerAdmin
  authenticatedBy := .apiKey
  serviceAccountId := row.serviceAccountId

def byHashedKey (token : String) : Prog AuthWorld (Handled RequestAuth) := do
  match ← (ApiKeyRepository.findByHashedKey (deps.sha256Hex token)).zoom AuthWorld.tables with
  | none => return invalidApiKey
  | some row =>
    if row.expires.any (· < k.key) then return .json 401 "API_KEY_EXPIRED" "api key expired"
    else
      match (row.serviceAccountId.or row.ownerUserId).bind orNull with
      | none => return .next (ofRow row false none)     -- a key of nobody is let in
      | some principalId => do
          match ← Prog.read (·.db.findUser principalId) with
          | none => return .json 401 "USER_DISABLED" "principal disabled"
          | some principal =>
            if principal.isDisabled then return .json 401 "USER_DISABLED" "principal disabled"
            else do
              let membership ← Prog.read (·.db.findMembership row.orgId principalId)
              return .next (ofRow row principal.isAdmin membership)

def byToken (token : String) : Prog AuthWorld (Handled RequestAuth) :=
  match deps.apiKeyService with
  | some service => byApiKey k service token
  | none => byHashedKey deps k token

def authMiddleware (req : HttpRequest) : Prog AuthWorld (Handled RequestAuth) :=
  match readCookie req.cookie SESSION_COOKIE_NAME with
  | some rawSessionToken => bySession deps k rawSessionToken
  | none =>
    match (bearerToken req).bind orNull with
    | some token => byToken deps k token
    | none => return unauthorized

def createAuthMiddleware (nodeEnv : Option String) :
    Except String (HttpRequest → Prog AuthWorld (Handled RequestAuth)) :=
  if deps.apiKeyService.isNone ∧ nodeEnv ≠ some "test" then
    .error ("createAuthMiddleware: apiKeyService is required outside test mode — " ++
      "refusing to boot with the weaker pre-T6 raw-repo fallback path")
  else .ok (authMiddleware deps k)

/-! ## Which credential is used -/

variable {deps k}

theorem bySession_authenticatedBy {rawSessionToken : String} {w w' : AuthWorld}
    {auth : RequestAuth} (h : (bySession deps k rawSessionToken).run w = (.ok (.next auth), w')) :
    auth.authenticatedBy = .session := by
  obtain ⟨row, w₁, -, h⟩ := Prog.run_bind_ok h
  cases row with
  | none => cases h
  | some row =>
    obtain ⟨user, w₂, -, h⟩ := Prog.run_bind_ok h
    cases user with
    | none => cases h
    | some user =>
      simp only at h
      split at h
      · cases h
      · cases h
        rfl

theorem byApiKey_next {service : TokenDeps} {token : String} {w w' : AuthWorld}
    {auth : RequestAuth} (h : (byApiKey k service token).run w = (.ok (.next auth), w')) :
    ∃ lookup db', (ApiKeyService.validateAndLookup service k.key token).run w.db =
      (.ok (some lookup), db') ∧ auth = ofLookup lookup := by
  obtain ⟨found, w₁, hfound, hrest⟩ := Prog.run_bind_ok h
  cases found with
  | none => cases hrest
  | some lookup =>
    rw [Prog.run_zoom] at hfound
    refine ⟨lookup, _, Prod.ext (Prod.mk.inj hfound).1 rfl, ?_⟩
    cases hrest
    rfl

theorem byHashedKey_next {token : String} {w w' : AuthWorld} {auth : RequestAuth}
    (h : (byHashedKey deps k token).run w = (.ok (.next auth), w')) :
    ∃ row isServerAdmin membership,
      ((ApiKeyRepository.findByHashedKey (deps.sha256Hex token)).run w.db).1 = .ok (some row) ∧
        auth = ofRow row isServerAdmin membership := by
  obtain ⟨found, w₁, hfound, hrest⟩ := Prog.run_bind_ok h
  rw [Prog.run_zoom] at hfound
  have hfind := (Prod.mk.inj hfound).1
  cases found with
  | none => cases hrest
  | some row =>
    simp only at hrest
    split at hrest
    · cases hrest
    · split at hrest
      · -- a key of nobody
        cases hrest
        exact ⟨row, false, none, hfind, rfl⟩
      · obtain ⟨principal, w₂, -, hrest⟩ := Prog.run_bind_ok hrest
        cases principal with
        | none => cases hrest
        | some principal =>
          simp only at hrest
          split at hrest
          · cases hrest
          · obtain ⟨membership, w₃, -, hrest⟩ := Prog.run_bind_ok hrest
            cases hrest
            exact ⟨row, principal.isAdmin, membership, hfind, rfl⟩

theorem byToken_authenticatedBy {token : String} {w w' : AuthWorld} {auth : RequestAuth}
    (h : (byToken deps k token).run w = (.ok (.next auth), w')) :
    auth.authenticatedBy = .apiKey := by
  unfold byToken at h
  split at h
  · obtain ⟨lookup, db', -, rfl⟩ := byApiKey_next h
    rfl
  · obtain ⟨row, isServerAdmin, membership, -, rfl⟩ := byHashedKey_next h
    rfl

theorem cookie_of_session {req : HttpRequest} {w w' : AuthWorld} {auth : RequestAuth}
    (h : (authMiddleware deps k req).run w = (.ok (.next auth), w'))
    (hsession : auth.authenticatedBy = .session) :
    readCookie req.cookie SESSION_COOKIE_NAME ≠ none := by
  intro hnone
  simp only [authMiddleware, hnone] at h
  split at h
  · rw [byToken_authenticatedBy h] at hsession
    cases hsession
  · cases h

end Middleware

end OpenObs.Middleware
