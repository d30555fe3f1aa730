import OpenObs.Auth.Sessions
import OpenObs.Foundation.Machine
import OpenObs.Rbac.Tokens

/-!
# The first admin

`services/setup-bootstrap-service.ts` with `isBootstrapped` and `markBootstrapped` of
`services/setup-config-service.ts`. The service remembers the promise of the call that runs.
-/

namespace OpenObs.Setup

open OpenObs.Foundation

/-! ## Inputs -/

structure BootstrapAdminInput where
  email : Option Json
  name : Option Json
  login : Option Json
  password : Option Json
  userAgent : Option String := none
  ip : Option String := none

structure BootstrapAdminResult where
  userId : String
  orgId : String
  sessionToken : String

/-- `SetupBootstrapServiceError`, by its kind, or what a repository has thrown. -/
inductive BootstrapError where
  | validation (message : String)
  | conflict (message : String)
  | database (message : String)

/-- What the service is built with: the default org, the environment, the number conversions, and
the hash of the session tokens. -/
structure SetupBootstrapServiceDeps where
  defaultOrgId : Option String
  passwordMinLengthVar : Option String
  toFiniteNumber : String → Option ℚ
  showNumber : ℚ → String
  hashSessionToken : String → String

def DEFAULT_PASSWORD_MIN_LENGTH : ℚ := 12

variable (deps : SetupBootstrapServiceDeps)

def passwordMinLength : ℚ :=
  match deps.passwordMinLengthVar with
  | none => DEFAULT_PASSWORD_MIN_LENGTH
  | some v =>
    if v = "" then DEFAULT_PASSWORD_MIN_LENGTH
    else
      match deps.toFiniteNumber v with
      | some n => if 0 < n then n else DEFAULT_PASSWORD_MIN_LENGTH
      | none => DEFAULT_PASSWORD_MIN_LENGTH

def orgId : String := deps.defaultOrgId.getD "org_main"

structure AdminFields where
  email : String
  name : String
  login : String
  password : String

/-- `typeof v === 'string' ? v : ''`. -/
def stringOf : Option Json → String
  | some (.str s) => s
  | _ => ""

def assertValidEmail (email : String) : Except BootstrapError Unit :=
  let invalid := .error (.validation "valid email required")
  match email.toList.findIdx? (· = '@') with
  | none => invalid
  | some atIdx =>
    if atIdx < 1 ∨ atIdx = email.length - 1 ∨ '.' ∉ email.toList.drop (atIdx + 1) then invalid
    else .ok ()

def readAdmin (input : BootstrapAdminInput) : Except BootstrapError AdminFields := do
  let email := Rbac.trim (stringOf input.email)
  let name := Rbac.trim (stringOf input.name)
  let login :=
    if Rbac.trim (stringOf input.login) ≠ "" then Rbac.trim (stringOf input.login)
    else String.ofList (email.toList.takeWhile (· ≠ '@'))
  let password := stringOf input.password
  assertValidEmail email
  if name = "" then throw (.validation "name required")
  if login = "" then throw (.validation "login required")
  let minLen := passwordMinLength deps
  if ((Text.units password.toList).length : ℚ) < minLen then
    throw (.validation ("password must be at least " ++ deps.showNumber minLen ++ " characters"))
  return { email, name, login, password }

/-! ## The tables -/

structure UserRow where
  id : String
  email : String
  name : String
  login : String
  password : String
  orgId : String
  isAdmin : Bool
  emailVerified : Bool

structure OrgRow where
  id : String
  name : String

/-- The tables that a call uses, and the setting `bootstrapped_at`. -/
structure BootstrapDb where
  bootstrappedAt : Option String
  orgs : List OrgRow
  users : List UserRow
  orgUsers : List Rbac.OrgUser
  sessions : Auth.Table

namespace BootstrapDb

variable (db : BootstrapDb)

def createOrg (org : OrgRow) : Except String BootstrapDb :=
  if db.orgs.any fun o => o.id = org.id ∨ o.name = org.name then .error "UNIQUE constraint failed"
  else .ok { db with orgs := db.orgs ++ [org] }

def createUser (user : UserRow) : Except String BootstrapDb :=
  if db.users.any fun u => u.id = user.id ∨ u.email = user.email ∨ u.login = user.login then
    .error "UNIQUE constraint failed"
  else if ¬ db.orgs.any (·.id = user.orgId) then .error "FOREIGN KEY constraint failed"
  else .ok { db with users := db.users ++ [user] }

def createOrgUser (member : Rbac.OrgUser) : Except String BootstrapDb :=
  if db.orgUsers.any fun m => m.orgId = member.orgId ∧ m.userId = member.userId then
    .error "UNIQUE constraint failed"
  else if ¬ (db.orgs.any (·.id = member.orgId) ∧ db.users.any (·.id = member.userId)) then
    .error "FOREIGN KEY constraint failed"
  else .ok { db with orgUsers := db.orgUsers ++ [member] }

/-- `INSERT`, and the row read back. -/
def createSession (row : Auth.UserAuthToken) : Except String BootstrapDb :=
  if ¬ db.users.any (·.id = row.userId) then .error "FOREIGN KEY constraint failed"
  else (Auth.Table.create db.sessions row).map fun created => { db with sessions := created.2 }

end BootstrapDb

/-! ## Calls -/

/-- What `runCreateFirstAdmin` awaits next; `settled` once its promise is. -/
inductive RunPhase where
  | checking
  | findingOrg (admin : AdminFields)
  | creatingOrg (admin : AdminFields)
  | creatingUser (admin : AdminFields)
  | creatingOrgUser (userId : String)
  | gettingMarker (userId : String)
  | settingMarker (userId : String)
  | creatingSession (userId : String)
  | settled (result : Except BootstrapError BootstrapAdminResult)

/-- What `createFirstAdmin` awaits next: the promise of call `k`, the marker, its own run. -/
inductive CallPhase where
  | awaiting (k : ℕ)
  | rechecking
  | proceeding
  | running (run : RunPhase)
  | done (result : Except BootstrapError BootstrapAdminResult)

structure Drawn where
  hashed : String
  userId : String
  sessionId : String
  token : String
  now : String
  nowMs : ℤ

def alreadyExists : BootstrapError := .conflict "admin already exists"

def afterWrite (db : BootstrapDb) (next : RunPhase) : Except String BootstrapDb →
    RunPhase × BootstrapDb
  | .ok db' => (next, db')
  | .error e => (.settled (.error (.database e)), db)

def runCreateFirstAdmin (input : BootstrapAdminInput) (drawn : Drawn) (db : BootstrapDb) :
    RunPhase → RunPhase × BootstrapDb
  | .checking =>
    match db.bootstrappedAt with
    | some _ => (.settled (.error alreadyExists), db)
    | none =>
      match readAdmin deps input with
      | .error e => (.settled (.error e), db)
      | .ok admin => (.findingOrg admin, db)
  | .findingOrg admin =>
    if db.orgs.any (·.id = orgId deps) then (.creatingUser admin, db)
    else (.creatingOrg admin, db)
  | .creatingOrg admin =>
    afterWrite db (.creatingUser admin) (db.createOrg { id := orgId deps, name := "Main Org" })
  | .creatingUser admin =>
    let user : UserRow :=
      { id := drawn.userId, email := admin.email, name := admin.name, login := admin.login,
        password := drawn.hashed, orgId := orgId deps, isAdmin := true, emailVerified := true }
    afterWrite db (.creatingOrgUser user.id) (db.createUser user)
  | .creatingOrgUser userId =>
    afterWrite db (.gettingMarker userId)
      (db.createOrgUser { orgId := orgId deps, userId, role := .admin })
  | .gettingMarker userId =>
    match db.bootstrappedAt with
    | some existing =>
      -- an empty marker is written again
      (if existing = "" then .settingMarker userId else .creatingSession userId, db)
    | none => (.settingMarker userId, db)
  | .settingMarker userId => (.creatingSession userId, { db with bootstrappedAt := some drawn.now })
  | .creatingSession userId =>
    let row : Auth.UserAuthToken :=
      { id := drawn.sessionId, userId, authToken := deps.hashSessionToken drawn.token,
        prevAuthToken := "", userAgent := input.userAgent.getD "", clientIp := input.ip.getD "",
        authTokenSeen := false, seenAt := none, rotatedAt := drawn.nowMs,
        createdAt := drawn.nowMs, updatedAt := drawn.nowMs, revokedAt := none }
    let result : BootstrapAdminResult :=
      { userId, orgId := orgId deps, sessionToken := drawn.token }
    afterWrite db (.settled (.ok result)) (db.createSession row)
  | .settled result => (.settled result, db)

structure BootstrapCall where
  input : BootstrapAdminInput
  phase : CallPhase

structure BootstrapWorld where
  db : BootstrapDb
  inflight : Option ℕ := none
  calls : List BootstrapCall := []

def CallPhase.isSettled : CallPhase → Bool
  | .running (.settled _) => true
  | .done _ => true
  | _ => false

inductive BootstrapLabel : Type where
  | createFirstAdmin (input : BootstrapAdminInput)
  | step (i : ℕ) (drawn : Drawn)

namespace BootstrapWorld

variable (w : BootstrapWorld)

def move (i : ℕ) (input : BootstrapAdminInput) (phase : CallPhase) : BootstrapWorld :=
  { w with calls := w.calls.set i ⟨input, phase⟩ }

def resume (i : ℕ) (input : BootstrapAdminInput) (drawn : Drawn) :
    CallPhase → Option BootstrapWorld
  | .awaiting k =>
    if (w.calls[k]?).any (·.phase.isSettled) then some (w.move i input .rechecking) else none
  | .rechecking =>
    match w.db.bootstrappedAt with
    | some _ => some (w.move i input (.done (.error alreadyExists)))
    | none => some (w.move i input .proceeding)
  -- by now the promise of another call may be remembered; it is forgotten here
  | .proceeding => some { w.move i input (.running .checking) with inflight := some i }
  | .running (.settled result) =>
    some { w.move i input (.done result) with
      inflight := if w.inflight = some i then none else w.inflight }
  | .running run =>
    let (run', db') := runCreateFirstAdmin deps input drawn w.db run
    some { w.move i input (.running run') with db := db' }
  | .done _ => none

def call (input : BootstrapAdminInput) : BootstrapWorld :=
  match w.inflight with
  | some k => { w with calls := w.calls ++ [⟨input, .awaiting k⟩] }
  | none =>
    { w with calls := w.calls ++ [⟨input, .running .checking⟩], inflight := some w.calls.length }

def next : BootstrapLabel → Option BootstrapWorld
  | .createFirstAdmin input => some (w.call input)
  | .step i drawn =>
    match w.calls[i]? with
    | some ⟨input, phase⟩ => w.resume deps i input drawn phase
    | none => none

end BootstrapWorld

end OpenObs.Setup
