import OpenObs.Middleware.Auth
import OpenObs.Rbac.AccountTokens

/-!
# The org of a request

`middleware/org-context.ts`: a request acts in the org it names, in a header or else in the query,
if its principal is a member there, and by default in the org that the authentication has found.
For an API key this is the org of the key.
-/

namespace OpenObs.Middleware

open OpenObs.Foundation OpenObs.Rbac

def ORG_HEADER : String := "x-openobs-org-id"

def explicitOrg (req : HttpRequest) : Option String :=
  let header := match req.headers ORG_HEADER with
    | some (.text v) => orNull v
    | _ => none
  header.or <| match req.query "orgId" with
    | some (.text v) => some v
    | _ => none

def notMember : Handled RequestAuth := .json 403 "FORBIDDEN" "user is not a member of any org"

def orgContextMiddleware (req : HttpRequest) : Option RequestAuth → Prog Db (Handled RequestAuth)
  | none => return unauthorized
  | some auth =>
    let desired := (explicitOrg req).getD auth.orgId
    if desired = "" then return notMember
    else do
      match ← Prog.read (·.findMembership desired auth.userId) with
      | none =>
        -- a server admin keeps the org that was found, if it has named none
        if auth.isServerAdmin = true ∧ (explicitOrg req).bind orNull = none then
          return .next auth
        else return notMember
      | some membership =>
        return .next { auth with orgId := desired, orgRole := membership.role }

/-! ## The org of a key -/

structure IsKeyOf (orgId principal : String) (auth : RequestAuth) : Prop where
  orgId : auth.orgId = orgId
  userId : auth.userId = principal
  authenticatedBy : auth.authenticatedBy = .apiKey

/-- The middleware hashes as the service does, and so does the service it looks keys up with. -/
structure AuthMiddlewareDeps.Hashes (deps : AuthMiddlewareDeps) (sha256Hex : String → String) :
    Prop where
  raw : deps.sha256Hex = sha256Hex
  service : ∀ service ∈ deps.apiKeyService, service.sha256Hex = sha256Hex

section Key

variable {deps : AuthMiddlewareDeps} {k : AuthReadings} {orgId principal token : String}
  {w w' : AuthWorld} {auth : RequestAuth}

theorem byApiKey_keyOf {service : TokenDeps}
    (hkey : KeyOf orgId principal (service.sha256Hex token) w.db)
    (h : (byApiKey k service token).run w = (.ok (.next auth), w')) :
    IsKeyOf orgId principal auth := by
  obtain ⟨lookup, db', hlookup, rfl⟩ := byApiKey_next h
  obtain ⟨horg, huser⟩ := validateAndLookup_some hlookup hkey
  exact ⟨horg, huser, rfl⟩

theorem byHashedKey_keyOf (hkey : KeyOf orgId principal (deps.sha256Hex token) w.db)
    (h : (byHashedKey deps k token).run w = (.ok (.next auth), w')) :
    IsKeyOf orgId principal auth := by
  obtain ⟨row, hfind, horg, hprincipal⟩ := hkey
  obtain ⟨row', isServerAdmin, membership, hfound, rfl⟩ := byHashedKey_next h
  rw [ApiKeyRepository.findByHashedKey, Prog.run_read] at hfound
  have hsame : some row = some row' := hfind.symm.trans (Except.ok.inj hfound)
  cases hsame
  refine ⟨horg, ?_, rfl⟩
  show (row.serviceAccountId.or row.ownerUserId).getD "" = principal
  rw [ApiKey.principal] at hprincipal
  rw [hprincipal]
  rfl

theorem authMiddleware_keyOf {sha256Hex : String → String} {req : HttpRequest}
    (hdeps : deps.Hashes sha256Hex) (hcarries : bearerToken req = some token)
    (hcookie : readCookie req.cookie SESSION_COOKIE_NAME = none)
    (hkey : KeyOf orgId principal (sha256Hex token) w.db)
    (h : (authMiddleware deps k req).run w = (.ok (.next auth), w')) :
    IsKeyOf orgId principal auth := by
  simp only [authMiddleware, hcookie, hcarries, Option.bind_some] at h
  split at h
  · rename_i t ht
    obtain rfl : token = t := by
      unfold orNull at ht
      split at ht
      · cases ht
      · exact Option.some.inj ht
    unfold byToken at h
    split at h
    · rename_i service hservice
      rw [← hdeps.service service hservice] at hkey
      exact byApiKey_keyOf hkey h
    · rw [← hdeps.raw] at hkey
      exact byHashedKey_keyOf hkey h
  · cases h

end Key

theorem orgContextMiddleware_next {req : HttpRequest} {auth auth' : RequestAuth} {db db' : Db}
    (h : (orgContextMiddleware req (some auth)).run db = (.ok (.next auth'), db')) :
    auth'.userId = auth.userId ∧ auth'.authenticatedBy = auth.authenticatedBy ∧
      ((auth'.orgId = auth.orgId ∧ explicitOrg req = none) ∨
        ∃ org membership, explicitOrg req = some org ∧ auth'.orgId = org ∧
          db.findMembership org auth.userId = some membership ∧
          auth'.orgRole = membership.role) := by
  simp only [orgContextMiddleware] at h
  split at h
  · cases h
  · rename_i hdesired
    rw [Prog.run_bind, Prog.run_read] at h
    cases hmember : db.findMembership ((explicitOrg req).getD auth.orgId) auth.userId with
    | none =>
      simp only [hmember] at h
      split at h
      · rename_i hadmin
        cases h
        refine ⟨rfl, rfl, Or.inl ⟨rfl, ?_⟩⟩
        cases horg : explicitOrg req with
        | none => rfl
        | some org =>
          -- an org that is named and empty was refused above
          rw [horg] at hadmin hdesired
          simp [orNull] at hadmin hdesired
          exact absurd hadmin.2 hdesired
      · cases h
    | some membership =>
      simp only [hmember] at h
      cases h
      refine ⟨rfl, rfl, ?_⟩
      cases horg : explicitOrg req with
      | none => exact Or.inl ⟨rfl, rfl⟩
      | some org =>
        rw [horg] at hmember
        exact Or.inr ⟨org, membership, rfl, rfl, hmember, rfl⟩

/-- **Where a key acts.** A request that carries a token issued in an org and passes both
middlewares, whatever the memberships are by then, is its session's, if it sends a session cookie,
or it is made by the token's principal: in the token's org if it names none, else in the org that
it names, of which the principal is a member. -/
theorem key_acts_in_named_org (service : TokenDeps) (orgId principal token : String) (db : Db)
    (hissue : IssuedIn service orgId principal token db) (deps : AuthMiddlewareDeps)
    (hdeps : deps.Hashes service.sha256Hex) (k : AuthReadings) (req : HttpRequest)
    (hcarries : bearerToken req = some token) (w w' : AuthWorld)
    (hkeys : w.db.apiKeys = db.apiKeys) (auth : RequestAuth)
    (hauth : (authMiddleware deps k req).run w = (.ok (.next auth), w')) (db₁ db₂ : Db)
    (auth' : RequestAuth)
    (horg : (orgContextMiddleware req (some auth)).run db₁ = (.ok (.next auth'), db₂)) :
    if readCookie req.cookie SESSION_COOKIE_NAME = none then
      auth'.authenticatedBy = .apiKey ∧ auth'.userId = principal ∧
        match explicitOrg req with
        | none => auth'.orgId = orgId
        | some named => auth'.orgId = named ∧ ∃ membership,
            db₁.findMembership named principal = some membership ∧
            auth'.orgRole = membership.role
    else auth'.authenticatedBy = .session := by
  obtain ⟨huser, hby, hwhere⟩ := orgContextMiddleware_next horg
  split
  · rename_i hcookie
    have hkey := authMiddleware_keyOf hdeps hcarries hcookie (hissue.keyOf.of_apiKeys hkeys) hauth
    refine ⟨hby.trans hkey.authenticatedBy, huser.trans hkey.userId, ?_⟩
    rw [hkey.userId, hkey.orgId] at hwhere
    rcases hwhere with ⟨hdefault, hnone⟩ | ⟨named, membership, hnamed, hactive, hmember, hrole⟩
    · rw [hnone]
      exact hdefault
    · rw [hnamed]
      exact ⟨hactive, membership, hmember, hrole⟩
  · rename_i hcookie
    obtain ⟨rawSessionToken, hraw⟩ := Option.ne_none_iff_exists'.mp hcookie
    simp only [authMiddleware, hraw] at hauth
    exact hby.trans (bySession_authenticatedBy hauth)

/-! ### A token of a member of two orgs -/

def twoOrgDb : Db :=
  { orgs := ["org", "other"]
    users := [⟨"u", "u", "u@example", "org", false, false, false⟩]
    orgUsers := [⟨"org", "u", .editor⟩, ⟨"other", "u", .viewer⟩] }

def firstOrgIssue : Except String IssuedToken × Db :=
  (ApiKeyService.issuePersonalAccessToken plainDeps ⟨0, "x", "k"⟩ "org" "u"
    { name := "cli" }).run twoOrgDb

def secondOrgRequest : HttpRequest where
  method := "GET"
  path := "/api/dashboards"
  authorization := some "Bearer openobs_pat_x"
  headers name := if name = ORG_HEADER then some (.text "other") else none

def keyDeps : AuthMiddlewareDeps where
  sessions := { sha256 := id }
  apiKeyService := some plainDeps
  sha256Hex := id

def firstOrgAuth : RequestAuth where
  userId := "u"
  orgId := "org"
  orgRole := .editor
  isServerAdmin := false
  authenticatedBy := .apiKey

def secondOrgAuth : RequestAuth := { firstOrgAuth with orgId := "other", orgRole := .viewer }

theorem secondOrgRequest_passes :
    IssuedIn plainDeps "org" "u" "openobs_pat_x" firstOrgIssue.2 ∧
    keyDeps.Hashes plainDeps.sha256Hex ∧
    bearerToken secondOrgRequest = some "openobs_pat_x" ∧
    ((authMiddleware keyDeps ⟨0, ⟨0, 0⟩, 0⟩ secondOrgRequest).run ⟨[], firstOrgIssue.2⟩).1 =
      .ok (.next firstOrgAuth) ∧
    ((orgContextMiddleware secondOrgRequest (some firstOrgAuth)).run firstOrgIssue.2).1 =
      .ok (.next secondOrgAuth) := by
  have hcookie : readCookie secondOrgRequest.cookie SESSION_COOKIE_NAME = none := rfl
  have hbearer : bearerToken secondOrgRequest = some "openobs_pat_x" := by decide +kernel
  have hissued : firstOrgIssue.1 = .ok ⟨"k", "cli", "openobs_pat_x", "org", some "u", none⟩ := rfl
  refine ⟨Or.inl ⟨_, _, twoOrgDb, _, rfl, Prod.ext hissued rfl⟩, ⟨rfl, ?_⟩, hbearer, ?_, ?_⟩
  · rintro service ⟨⟩
    rfl
  · simp only [authMiddleware, hcookie, hbearer]
    rfl
  · rfl

/-- **A token is not bound to its org.** -/
theorem key_leaves_its_org :
    ¬ ∀ (service : TokenDeps) (orgId principal token : String) (db : Db),
      IssuedIn service orgId principal token db → ∀ deps : AuthMiddlewareDeps,
      deps.Hashes service.sha256Hex → ∀ (k : AuthReadings) (req : HttpRequest),
      bearerToken req = some token → ∀ w w' : AuthWorld, w.db.apiKeys = db.apiKeys →
      ∀ auth, (authMiddleware deps k req).run w = (.ok (.next auth), w') →
      ∀ db₁ db₂ auth', (orgContextMiddleware req (some auth)).run db₁ =
        (.ok (.next auth'), db₂) → auth'.orgId = orgId := by
  intro h
  obtain ⟨hissue, hdeps, hbearer, hauth, horg⟩ := secondOrgRequest_passes
  have hother := h plainDeps "org" "u" "openobs_pat_x" firstOrgIssue.2 hissue keyDeps hdeps
    ⟨0, ⟨0, 0⟩, 0⟩ secondOrgRequest hbearer ⟨[], firstOrgIssue.2⟩ _ rfl firstOrgAuth
    (Prod.ext hauth rfl) firstOrgIssue.2 _ secondOrgAuth (Prod.ext horg rfl)
  exact absurd hother (by decide)

theorem key_acts_in_named_org_second :
    secondOrgAuth.authenticatedBy = .apiKey ∧ secondOrgAuth.orgId = "other" := by
  obtain ⟨hissue, hdeps, hbearer, hauth, horg⟩ := secondOrgRequest_passes
  have h := key_acts_in_named_org plainDeps "org" "u" "openobs_pat_x" firstOrgIssue.2 hissue
    keyDeps hdeps ⟨0, ⟨0, 0⟩, 0⟩ secondOrgRequest hbearer ⟨[], firstOrgIssue.2⟩ _ rfl firstOrgAuth
    (Prod.ext hauth rfl) firstOrgIssue.2 _ secondOrgAuth (Prod.ext horg rfl)
  exact ⟨h.1, h.2.2.1⟩

end OpenObs.Middleware
