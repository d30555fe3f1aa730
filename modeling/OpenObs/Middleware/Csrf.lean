import Mathlib
import OpenObs.Middleware.Auth

/-!
# CSRF protection

`middleware/csrf.ts`, the double-submit cookie. It runs before the request is authenticated and
tells from the headers how it will be: both files read the cookies with the same function, so a
request that passes as one without a session is not its session's later.
-/

namespace OpenObs.Middleware

open OpenObs.Foundation OpenObs.Rbac

def CSRF_COOKIE_NAME : String := "openobs_csrf"

def CSRF_HEADER_NAME : String := "x-csrf-token"

def SAFE_METHODS : List String := ["GET", "HEAD", "OPTIONS"]

def buildCsrfCookie (token : String) (maxAgeSec : ℕ) (secure : Bool) : String :=
  Text.join ((CSRF_COOKIE_NAME ++ "=" ++ token) :: " SameSite=Lax" :: " Path=/" ::
    (" Max-Age=" ++ toString maxAgeSec) :: if secure then [" Secure"] else []) ';'

/-- The comparison of the bytes throws if their numbers differ, which equal lengths in code units
do not rule out. -/
def constantTimeEqual (a b : String) : Except String Bool :=
  if (Text.units a.toList).length ≠ (Text.units b.toList).length then .ok false
  else if a.toUTF8.size ≠ b.toUTF8.size then
    .error "Input buffers must have the same byte length"
  else .ok (decide (a.toUTF8 = b.toUTF8))

/-! ## Exempt paths -/

def DEFAULT_EXEMPT_EXACT : List String :=
  ["/api/login", "/api/logout", "/api/setup/admin", "/api/saml/login", "/api/saml/acs",
    "/api/saml/metadata", "/api/saml/slo"]

/-- `/^\/api\/login\/[^/]+(\/callback)?$/`. -/
def isLoginProviderPath (path : String) : Bool :=
  match Scan.expect "/api/login/".toList path.toList with
  | none => false
  | some rest =>
    !(rest.takeWhile (· ≠ '/')).isEmpty &&
      (rest.dropWhile (· ≠ '/') == [] || rest.dropWhile (· ≠ '/') == "/callback".toList)

/-- What an application exempts beyond the default, and whether its cookies are `Secure`. -/
structure CsrfOptions where
  exemptExact : List String := []
  exemptRegex : List (String → Bool) := []
  dropSecure : Bool := true

def isExempt (opts : CsrfOptions) (path : String) : Bool :=
  decide (path ∈ DEFAULT_EXEMPT_EXACT ++ opts.exemptExact) ||
    (isLoginProviderPath :: opts.exemptRegex).any (· path)

/-! ## The middleware -/

def csrfFailed : Handled Unit := .json 403 "CSRF_FAILED" "invalid or missing CSRF token"

def hasBearer (req : HttpRequest) : Bool :=
  req.authorization.any (Text.startsWith · "Bearer ") || (xApiKey req).isSome

def csrfHeader (req : HttpRequest) : Option String :=
  match req.headers CSRF_HEADER_NAME with
  | some (.text v) => some v
  | some (.list (v :: _)) => some v
  | _ => none

def csrfMiddleware (opts : CsrfOptions) (minted : String) (req : HttpRequest) :
    Except String (Handled Unit × Option String) :=
  if isExempt opts req.path then .ok (.next (), none)
  else
    let sessionCookie := readCookie req.cookie SESSION_COOKIE_NAME
    let csrfCookie := readCookie req.cookie CSRF_COOKIE_NAME
    if hasBearer req = true ∧ sessionCookie = none then .ok (.next (), none)
    else if sessionCookie ≠ none ∧ csrfCookie = none then
      -- a cookie for the next request; this one does not have it yet
      let cookie := some (buildCsrfCookie minted (60 * 60 * 24 * 7) !opts.dropSecure)
      if req.method ∈ SAFE_METHODS then .ok (.next (), cookie) else .ok (csrfFailed, cookie)
    else if req.method ∈ SAFE_METHODS then .ok (.next (), none)
    else if sessionCookie = none then .ok (.next (), none)
    else
      match (csrfHeader req).bind orNull, csrfCookie with
      | some header, some cookie => do
          if ← constantTimeEqual header cookie then .ok (.next (), none)
          else .ok (csrfFailed, none)
      | _, _ => .ok (csrfFailed, none)

/-! ## What passes -/

theorem eq_of_constantTimeEqual {a b : String} (h : constantTimeEqual a b = .ok true) : a = b := by
  unfold constantTimeEqual at h
  split at h
  · cases h
  · split at h
    · cases h
    · simpa [String.toByteArray_inj] using h

theorem orNull_eq_some {v w : String} : orNull v = some w ↔ v = w ∧ v ≠ "" := by
  unfold orNull
  split <;> simp_all

theorem hasBearer_iff (req : HttpRequest) : hasBearer req = true ↔ bearerToken req ≠ none := by
  unfold hasBearer bearerToken
  cases req.authorization with
  | none => simp [Option.isSome_iff_ne_none]
  | some h => cases hb : Text.startsWith h "Bearer " <;> simp [hb, Option.isSome_iff_ne_none]

theorem csrfMiddleware_next {opts : CsrfOptions} {minted : String} {req : HttpRequest}
    {cookie : Option String} (h : csrfMiddleware opts minted req = .ok (.next (), cookie))
    (hmethod : req.method ∉ SAFE_METHODS) (hpath : isExempt opts req.path = false)
    (hsession : readCookie req.cookie SESSION_COOKIE_NAME ≠ none) :
    ∃ v, v ≠ "" ∧ csrfHeader req = some v ∧
      readCookie req.cookie CSRF_COOKIE_NAME = some v := by
  simp only [csrfMiddleware, hpath, hmethod, hsession, Bool.false_eq_true, if_false, and_false,
    ne_eq, not_false_eq_true, true_and] at h
  split at h
  · cases h
  · split at h
    · rename_i v c hv hc
      obtain ⟨header, hheader, hv⟩ := Option.bind_eq_some_iff.mp hv
      obtain ⟨rfl, hne⟩ := orNull_eq_some.mp hv
      cases heq : constantTimeEqual header c with
      | error e =>
        rw [heq] at h
        cases h
      | ok b =>
        rw [heq] at h
        cases b with
        | false => cases h
        | true =>
          obtain rfl := eq_of_constantTimeEqual heq
          exact ⟨header, hne, hheader, hc⟩
    · cases h

/-- Every write that is its session's carries the token of its cookie, and no request with a token
of its own and without a session is refused. -/
theorem session_writes_carry_csrf_token (opts : CsrfOptions) (minted : String)
    (deps : AuthMiddlewareDeps) (k : AuthReadings) (req : HttpRequest) (w : AuthWorld) :
    (∀ cookie auth, csrfMiddleware opts minted req = .ok (.next (), cookie) →
      req.method ∉ SAFE_METHODS → isExempt opts req.path = false →
      ((authMiddleware deps k req).run w).1 = .ok (.next auth) →
      auth.authenticatedBy = .session →
      ∃ v, v ≠ "" ∧ csrfHeader req = some v ∧
        readCookie req.cookie CSRF_COOKIE_NAME = some v) ∧
    (bearerToken req ≠ none → readCookie req.cookie SESSION_COOKIE_NAME = none →
      csrfMiddleware opts minted req = .ok (.next (), none)) := by
  constructor
  · intro cookie auth hpass hmethod hpath hauth hsession
    exact csrfMiddleware_next hpass hmethod hpath
      (cookie_of_session (Prod.ext hauth rfl) hsession)
  · intro hbearer hnone
    unfold csrfMiddleware
    split
    · rfl
    · simp only [(hasBearer_iff req).mpr hbearer, hnone, and_self, if_true]

def pageWrite : HttpRequest where
  method := "POST"
  path := "/api/dashboards"
  cookie := some "openobs_csrf=t; openobs_session=s"
  headers name := if name = CSRF_HEADER_NAME then some (.text "t") else none

def scriptWrite : HttpRequest where
  method := "POST"
  path := "/api/dashboards"
  authorization := some "Bearer openobs_pat_x"

def plainSessions : AuthMiddlewareDeps where
  sessions := { sha256 := id }
  apiKeyService := some plainDeps
  sha256Hex := id

def pageWorld : AuthWorld where
  sessions := [⟨"row", "u", "s", "", "", "", true, none, 0, 0, 0, none⟩]
  db := editorDb

theorem session_writes_carry_csrf_token_page :
    (∃ v, v ≠ "" ∧ csrfHeader pageWrite = some v ∧
      readCookie pageWrite.cookie CSRF_COOKIE_NAME = some v) ∧
    csrfMiddleware {} "m" scriptWrite = .ok (.next (), none) := by
  have hpass : csrfMiddleware {} "m" pageWrite = .ok (.next (), none) := by decide +kernel
  have hcookie : readCookie pageWrite.cookie SESSION_COOKIE_NAME = some "s" := by decide +kernel
  have hlookup : plainSessions.sessions.lookupByToken 0 "s" pageWorld.sessions =
      some ⟨"row", "u", "s", "", "", "", true, none, 0, 0, 0, none⟩ := by decide +kernel
  have hauth : ((authMiddleware plainSessions ⟨0, ⟨0, 0⟩, 0⟩ pageWrite).run pageWorld).1 =
      .ok (.next { userId := "u", orgId := "org", orgRole := .editor, isServerAdmin := false,
                   authenticatedBy := .session, sessionId := some "row" }) := by
    simp only [authMiddleware, hcookie, bySession, Prog.run_bind, Prog.run_read, hlookup]
    rfl
  exact ⟨(session_writes_carry_csrf_token {} "m" plainSessions ⟨0, ⟨0, 0⟩, 0⟩ pageWrite
      pageWorld).1 none _ hpass (by decide) (by decide +kernel) hauth rfl,
    (session_writes_carry_csrf_token {} "m" plainSessions ⟨0, ⟨0, 0⟩, 0⟩ scriptWrite
      pageWorld).2 (by decide +kernel) (by decide +kernel)⟩

end OpenObs.Middleware
