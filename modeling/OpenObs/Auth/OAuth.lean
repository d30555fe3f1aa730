import OpenObs.Foundation.Json
import OpenObs.Foundation.Text

/-!
# Logins through another provider

`auth/oauth/base.ts`, `google.ts` and `generic.ts`: a callback brings what the provider says of its
user, and `resolveIdentity` finds the user it belongs to, by a row of `user_auth`, by the e-mail, or
by creating one.
-/

namespace OpenObs.Auth

open OpenObs.Foundation

namespace OAuth

/-! ## The tables -/

structure User where
  id : String
  email : String
  name : String
  login : String
  orgId : String
  emailVerified : Bool
deriving DecidableEq

structure StoredTokens where
  accessToken : Option String := none
  refreshToken : Option String := none
  idToken : Option String := none
  tokenType : Option String := none
  expiry : Option Int := none
deriving DecidableEq

structure UserAuth where
  id : String
  userId : String
  authModule : String
  authId : String
  tokens : StoredTokens := {}
deriving DecidableEq

structure Store where
  users : List User
  userAuth : List UserAuth

namespace Store

variable (s : Store)

def findById (id : String) : Option User := s.users.find? (·.id = id)

def findByEmail (email : String) : Option User := s.users.find? (·.email = email)

def findByAuthInfo (authModule authId : String) : Option UserAuth :=
  s.userAuth.find? fun r => r.authModule = authModule ∧ r.authId = authId

def createUser (u : User) : Except String Store :=
  if s.users.any fun v => v.id = u.id ∨ v.email = u.email ∨ v.login = u.login then
    .error "UNIQUE constraint failed"
  else .ok { s with users := s.users ++ [u] }

def createAuth (r : UserAuth) : Except String Store :=
  if s.userAuth.any fun q => q.id = r.id ∨ (q.authModule = r.authModule ∧ q.authId = r.authId) then
    .error "UNIQUE constraint failed"
  else if s.users.all (·.id ≠ r.userId) then .error "FOREIGN KEY constraint failed"
  else .ok { s with userAuth := s.userAuth ++ [r] }

def updateAuth (id : String) (tokens : StoredTokens) : Store :=
  { s with userAuth := s.userAuth.map fun r => if r.id = id then { r with tokens } else r }

end Store

/-! ## The code -/

structure OAuthTokenSet where
  accessToken : String
  refreshToken : Option String
  idToken : Option String
  tokenType : Option String
  expiresAt : Option Int

structure OAuthUserInfo where
  module : String
  authId : String
  email : String
  name : Json
  login : Option Json

structure OAuthIdentityResolution where
  user : User
  linked : Bool
  created : Bool

structure OAuthProviderConfig where
  allowSignup : Bool
  allowedDomains : List String := []
  emailAttribute : String := "email"
  nameAttribute : String := "name"
  loginAttribute : String := "preferred_username"

structure Deps where
  encrypt : String → String
  toLowerCase : String → String
  /-- What the driver stores of a value in a text column. -/
  bind : Json → Except String String
  defaultOrgId : String

structure Drawn where
  userId : String
  authRowId : String

def nonEmpty (s : String) : Option String := if s = "" then none else some s

def localPart (email : String) : String := ((Text.split email '@')[0]?).getD ""

def truthy : Json → Bool
  | .null => false
  | .bool b => b
  | .num n => n ≠ 0
  | .str s => s ≠ ""
  | _ => true

/-- `v || fallback`. -/
def orElse (v : Option Json) (fallback : String) : Json := (v.filter truthy).getD (.str fallback)

/-- `info.login.length > 0`. -/
def hasLength : Json → Bool
  | .str s => s ≠ ""
  | .arr vs => !vs.isEmpty
  | _ => false

section Code

variable (deps : Deps) (cfg : OAuthProviderConfig)

def storedTokens (tokens : OAuthTokenSet) : StoredTokens where
  accessToken := (nonEmpty tokens.accessToken).map deps.encrypt
  refreshToken := (tokens.refreshToken.bind nonEmpty).map deps.encrypt
  idToken := (tokens.idToken.bind nonEmpty).map deps.encrypt
  tokenType := tokens.tokenType
  expiry := tokens.expiresAt

/-- `userAuth.create` and `persistTokens`. -/
def link (info : OAuthUserInfo) (tokens : OAuthTokenSet) (drawn : Drawn) (userId : String)
    (s : Store) : Except String Store :=
  (s.createAuth ⟨drawn.authRowId, userId, info.module, info.authId, {}⟩).map
    (·.updateAuth drawn.authRowId (storedTokens deps tokens))

def newUser (info : OAuthUserInfo) (drawn : Drawn) : Except String User := do
  let login := ((info.login.filter truthy).filter hasLength).getD (.str (localPart info.email))
  let name ← deps.bind (if truthy info.name then info.name else login)
  let login ← deps.bind login
  return ⟨drawn.userId, info.email, name, login, deps.defaultOrgId, true⟩

def resolveIdentity (info : OAuthUserInfo) (tokens : OAuthTokenSet) (drawn : Drawn) (s : Store) :
    Except String OAuthIdentityResolution × Store :=
  if info.email = "" then (.error "invalid credentials", s)
  else
    match s.findByAuthInfo info.module info.authId with
    | some existing =>
      match s.findById existing.userId with
      | none => (.error "user_auth points to missing user", s)
      | some linked =>
        (.ok ⟨linked, true, false⟩, s.updateAuth existing.id (storedTokens deps tokens))
    | none =>
      match s.findByEmail info.email with
      | some byEmail =>
        match link deps info tokens drawn byEmail.id s with
        | .error e => (.error e, s)
        | .ok s' => (.ok ⟨byEmail, true, false⟩, s')
      | none =>
        if cfg.allowSignup = false then (.error "signup is disabled", s)
        else
          match newUser deps info drawn with
          | .error e => (.error e, s)
          | .ok user =>
            match s.createUser user with
            | .error e => (.error e, s)
            | .ok s₁ =>
              match link deps info tokens drawn user.id s₁ with
              | .error e => (.error e, s₁)
              | .ok s₂ => (.ok ⟨user, false, true⟩, s₂)

inductive Provider : Type where
  | google | generic
deriving DecidableEq

def Provider.module : Provider → String
  | google => "oauth_google"
  | generic => "oauth_generic"

/-- `email_verified` is `true` or `'true'`. -/
def emailVerified (body : Json.Record) : Bool :=
  match Json.field body "email_verified" with
  | some (.bool b) => b
  | some (.str s) => s = "true"
  | _ => false

def fetchUserInfo (p : Provider) (body : Json.Record) : Except String OAuthUserInfo :=
  match p with
  | .google =>
    match Json.field body "sub", Json.field body "email" with
    | some (.str sub), some (.str email) =>
      if emailVerified body then
        .ok ⟨p.module, sub, email, orElse (Json.field body "name") email,
          some (.str (localPart email))⟩
      else .error "invalid credentials"
    | _, _ => .error "invalid credentials"
  | .generic =>
    match Json.field body "sub", Json.field body cfg.emailAttribute with
    | some (.str sub), some (.str email) =>
      .ok ⟨p.module, sub, email, orElse (Json.field body cfg.nameAttribute) email,
        some (orElse (Json.field body cfg.loginAttribute) (localPart email))⟩
    | _, _ => .error "invalid credentials"

def domainAllowed (p : Provider) (email : String) : Bool :=
  p = .generic ∨ cfg.allowedDomains = [] ∨
    (cfg.allowedDomains.map deps.toLowerCase).contains
      (((Text.split email '@')[1]?).elim "" deps.toLowerCase)

structure Callback where
  provider : Provider
  cfg : OAuthProviderConfig
  cookieState : Option String
  state : String
  exchange : Except String OAuthTokenSet
  userinfo : Except String Json.Record
  drawn : Drawn

def userInfoOf (c : Callback) : Except String (OAuthTokenSet × OAuthUserInfo) :=
  if c.cookieState.bind nonEmpty ≠ some c.state then .error "state mismatch"
  else
    match c.exchange with
    | .error e => .error e
    | .ok tokens =>
      match c.userinfo with
      | .error e => .error e
      | .ok body =>
        match fetchUserInfo c.cfg c.provider body with
        | .error e => .error e
        | .ok info =>
          if domainAllowed deps c.cfg c.provider info.email then .ok (tokens, info)
          else .error "signup is disabled"

def handleCallback (c : Callback) (s : Store) : Except String OAuthIdentityResolution × Store :=
  match userInfoOf deps c with
  | .error e => (.error e, s)
  | .ok (tokens, info) => resolveIdentity deps c.cfg info tokens c.drawn s

end Code

/-! ## Owners -/

section Owner

variable {s s' : Store} {authModule authId : String}

def Store.owner (s : Store) (authModule authId : String) : Option String :=
  (s.findByAuthInfo authModule authId).map (·.userId)

theorem owner_updateAuth (id : String) (tokens : StoredTokens) :
    (s.updateAuth id tokens).owner authModule authId = s.owner authModule authId := by
  unfold Store.owner Store.findByAuthInfo Store.updateAuth
  rw [List.find?_map, Option.map_map]
  have hsame : ((fun r : UserAuth => decide (r.authModule = authModule ∧ r.authId = authId)) ∘
      fun r => if r.id = id then { r with tokens } else r) =
        fun r => decide (r.authModule = authModule ∧ r.authId = authId) := by
    funext r
    simp only [Function.comp_apply]
    split <;> rfl
  rw [hsame]
  congr 1
  funext r
  simp only [Function.comp_apply]
  split <;> rfl

theorem owner_createAuth {r : UserAuth} (h : s.createAuth r = .ok s') :
    s'.owner authModule authId = (s.owner authModule authId).or
      (if r.authModule = authModule ∧ r.authId = authId then some r.userId else none) := by
  unfold Store.createAuth at h
  split at h
  · cases h
  · split at h
    · cases h
    · cases h
      unfold Store.owner Store.findByAuthInfo
      rw [List.find?_append, Option.map_or]
      congr 1
      by_cases hr : r.authModule = authModule ∧ r.authId = authId
      · rw [List.find?_cons_of_pos (by simpa using hr), if_pos hr]
        rfl
      · rw [List.find?_cons_of_neg (by simpa using hr), if_neg hr]
        rfl

theorem owner_createUser {u : User} (h : s.createUser u = .ok s') :
    s'.owner authModule authId = s.owner authModule authId := by
  unfold Store.createUser at h
  split at h
  · cases h
  · cases h
    rfl

variable {deps : Deps} {cfg : OAuthProviderConfig} {info : OAuthUserInfo} {tokens : OAuthTokenSet}
  {drawn : Drawn}

theorem owner_link {userId : String} (h : link deps info tokens drawn userId s = .ok s') :
    s'.owner authModule authId = (s.owner authModule authId).or
      (if info.module = authModule ∧ info.authId = authId then some userId else none) := by
  unfold link at h
  cases hcreate : s.createAuth ⟨drawn.authRowId, userId, info.module, info.authId, {}⟩ with
  | error e =>
    rw [hcreate] at h
    cases h
  | ok s₁ =>
    rw [hcreate] at h
    cases h
    rw [owner_updateAuth, owner_createAuth hcreate]

theorem email_newUser {user : User} (h : newUser deps info drawn = .ok user) :
    user.email = info.email := by
  simp only [newUser, bind, Except.bind, pure, Except.pure] at h
  split at h
  · cases h
  · split at h
    · cases h
    · cases h
      rfl

/-- What a callback leaves: owners stay, and the identity it resolved has one; where it had none
before, the user has the e-mail that was brought. -/
structure Resolves (info : OAuthUserInfo) (s : Store)
    (r : Except String OAuthIdentityResolution × Store) : Prop where
  keeps : ∀ m a u, s.owner m a = some u → r.2.owner m a = some u
  owned : ∀ res, r.1 = .ok res → r.2.owner info.module info.authId = some res.user.id
  email : ∀ res, r.1 = .ok res → s.owner info.module info.authId = none →
    res.user.email = info.email

theorem Resolves.refused {e : String} (h : ∀ m a, s'.owner m a = s.owner m a) :
    Resolves info s (.error e, s') :=
  ⟨fun m a u hu => (h m a).trans hu, nofun, nofun⟩

theorem Resolves.linked {user : User} {s₁ : Store} {linked created : Bool}
    (hnone : s.owner info.module info.authId = none) (hsame : ∀ m a, s₁.owner m a = s.owner m a)
    (hlink : link deps info tokens drawn user.id s₁ = .ok s') (hemail : user.email = info.email) :
    Resolves info s (.ok ⟨user, linked, created⟩, s') := by
  refine ⟨fun m a u hu => ?_, ?_, ?_⟩
  · rw [owner_link hlink, hsame, hu]
    rfl
  · rintro res ⟨⟩
    rw [owner_link hlink, hsame, hnone, if_pos ⟨rfl, rfl⟩]
    rfl
  · rintro res ⟨⟩ -
    exact hemail

theorem resolves_resolveIdentity :
    Resolves info s (resolveIdentity deps cfg info tokens drawn s) := by
  unfold resolveIdentity
  split
  · exact .refused fun _ _ => rfl
  · split
    · rename_i existing hfound
      split
      · exact .refused fun _ _ => rfl
      · rename_i user huser
        have hid : user.id = existing.userId := by simpa using List.find?_some huser
        have howner : s.owner info.module info.authId = some user.id := by
          rw [Store.owner, hfound, hid]
          rfl
        refine ⟨fun m a u hu => (owner_updateAuth _ _).trans hu, ?_, ?_⟩
        · rintro res ⟨⟩
          exact (owner_updateAuth _ _).trans howner
        · rintro res - hnone
          cases howner.symm.trans hnone
    · rename_i hnew
      have hnone : s.owner info.module info.authId = none := by
        rw [Store.owner, hnew]
        rfl
      split
      · rename_i user huser
        split
        · exact .refused fun _ _ => rfl
        · rename_i hlink
          exact .linked hnone (fun _ _ => rfl) hlink (by simpa using List.find?_some huser)
      · split
        · exact .refused fun _ _ => rfl
        · split
          · exact .refused fun _ _ => rfl
          · rename_i user huser
            have hemail : user.email = info.email := email_newUser huser
            split
            · exact .refused fun _ _ => rfl
            · rename_i s₁ hcreate
              split
              · exact .refused fun _ _ => owner_createUser hcreate
              · rename_i hlink
                exact .linked hnone (fun _ _ => owner_createUser hcreate) hlink hemail

end Owner

/-! ## Runs -/

def Callback.identity (c : Callback) : Option (String × String) :=
  match c.userinfo with
  | .error _ => none
  | .ok body => ((Json.field body "sub").bind Json.asString).map (c.provider.module, ·)

def Callback.Asserts (c : Callback) (email : String) : Prop :=
  ∃ body, c.userinfo = .ok body ∧ Json.field body "email" = some (.str email) ∧
    emailVerified body = true

structure Entry where
  callback : Callback
  before : Store
  result : Except String OAuthIdentityResolution

def serve (deps : Deps) : List Callback → Store → List Entry
  | [], _ => []
  | c :: cs, s =>
    let r := handleCallback deps c s
    ⟨c, s, r.1⟩ :: serve deps cs r.2

def Entry.Unknown (e : Entry) : Prop :=
  ∀ k, e.callback.identity = some k → e.before.owner k.1 k.2 = none

structure Safe (entries : List Entry) : Prop where
  steady : ∀ e ∈ entries, ∀ e' ∈ entries, ∀ res res', e.result = .ok res →
    e'.result = .ok res' → e.callback.identity = e'.callback.identity → res.user.id = res'.user.id
  verified : ∀ e ∈ entries, ∀ res, e.result = .ok res → e.Unknown →
    e.callback.Asserts res.user.email

def Entry.Vouched (e : Entry) : Prop :=
  e.callback.provider = .generic → e.Unknown → ∀ body email, e.callback.userinfo = .ok body →
    Json.field body e.callback.cfg.emailAttribute = some (.str email) → e.callback.Asserts email

section Runs

variable {deps : Deps} {c : Callback} {s : Store}

theorem fetchUserInfo_ok {body : Json.Record} {info : OAuthUserInfo} {cfg : OAuthProviderConfig}
    {p : Provider} (h : fetchUserInfo cfg p body = .ok info) :
    info.module = p.module ∧ Json.field body "sub" = some (.str info.authId) ∧
      (p = .google → Json.field body "email" = some (.str info.email) ∧
        emailVerified body = true) ∧
      (p = .generic → Json.field body cfg.emailAttribute = some (.str info.email)) := by
  cases p with
  | google =>
    simp only [fetchUserInfo] at h
    split at h
    · rename_i sub email hsub hemail
      split at h
      · rename_i hverified
        cases h
        exact ⟨rfl, hsub, fun _ => ⟨hemail, hverified⟩, nofun⟩
      · cases h
    · cases h
  | generic =>
    simp only [fetchUserInfo] at h
    split at h
    · rename_i sub email hsub hemail
      cases h
      exact ⟨rfl, hsub, nofun, fun _ => hemail⟩
    · cases h

theorem userInfoOf_ok {tokens : OAuthTokenSet} {info : OAuthUserInfo}
    (h : userInfoOf deps c = .ok (tokens, info)) :
    ∃ body, c.userinfo = .ok body ∧ fetchUserInfo c.cfg c.provider body = .ok info := by
  unfold userInfoOf at h
  split at h
  · cases h
  · split at h
    · cases h
    · split at h
      · cases h
      · rename_i body hbody
        split at h
        · cases h
        · rename_i hfetch
          split at h
          · cases h
            exact ⟨body, hbody, hfetch⟩
          · cases h

theorem resolves_handleCallback {info : OAuthUserInfo} {tokens : OAuthTokenSet}
    (h : userInfoOf deps c = .ok (tokens, info)) :
    Resolves info s (handleCallback deps c s) := by
  rw [handleCallback, h]
  exact resolves_resolveIdentity

theorem keeps_handleCallback {m a u : String} (h : s.owner m a = some u) :
    (handleCallback deps c s).2.owner m a = some u := by
  cases hinfo : userInfoOf deps c with
  | error e =>
    rw [handleCallback, hinfo]
    exact h
  | ok r => exact (resolves_handleCallback hinfo).keeps m a u h

theorem handled {res : OAuthIdentityResolution} (h : (handleCallback deps c s).1 = .ok res) :
    ∃ m a, c.identity = some (m, a) ∧
      (handleCallback deps c s).2.owner m a = some res.user.id ∧
      ((Entry.mk c s (.ok res)).Vouched → s.owner m a = none → c.Asserts res.user.email) := by
  cases hinfo : userInfoOf deps c with
  | error e =>
    rw [handleCallback, hinfo] at h
    cases h
  | ok r =>
    obtain ⟨tokens, info⟩ := r
    obtain ⟨body, hbody, hfetch⟩ := userInfoOf_ok hinfo
    obtain ⟨hmodule, hsub, hgoogle, hgeneric⟩ := fetchUserInfo_ok hfetch
    have hresolves := resolves_handleCallback (s := s) hinfo
    have hidentity : c.identity = some (info.module, info.authId) := by
      rw [Callback.identity, hbody]
      dsimp only
      rw [hsub, hmodule]
      rfl
    refine ⟨_, _, hidentity, hresolves.owned res h, fun hvouched hnone => ?_⟩
    rw [hresolves.email res h hnone]
    cases hprovider : c.provider with
    | google => exact ⟨body, hbody, hgoogle hprovider⟩
    | generic =>
      refine hvouched hprovider (fun k hk => ?_) body _ hbody (hgeneric hprovider)
      cases hidentity.symm.trans hk
      exact hnone

def storeAfter (deps : Deps) (cs : List Callback) (s : Store) : Store :=
  cs.foldl (fun s c => (handleCallback deps c s).2) s

theorem keeps_storeAfter {m a u : String} {cs : List Callback} (h : s.owner m a = some u) :
    (storeAfter deps cs s).owner m a = some u := by
  induction cs generalizing s with
  | nil => exact h
  | cons c cs ih => exact ih (keeps_handleCallback h)

theorem entries_serve {cs : List Callback} : ∀ e ∈ serve deps cs s, ∀ res, e.result = .ok res →
    ∃ m a, e.callback.identity = some (m, a) ∧
      (storeAfter deps cs s).owner m a = some res.user.id ∧
      (e.Vouched → e.before.owner m a = none → e.callback.Asserts res.user.email) := by
  induction cs generalizing s with
  | nil => exact fun e he => nomatch he
  | cons c cs ih =>
    intro e he res hres
    rcases List.mem_cons.mp he with rfl | he
    · obtain ⟨m, a, hidentity, howner, hvouched⟩ := handled hres
      dsimp only at hres
      rw [hres]
      have hlast : (storeAfter deps cs (handleCallback deps c s).2).owner m a = some res.user.id :=
        keeps_storeAfter howner
      exact ⟨m, a, hidentity, hlast, hvouched⟩
    · exact ih e he res hres

/-- **Logins with vouched e-mails take over no account.** An identity is resolved to one user in
the whole run, and a new one only through an e-mail that the provider says is verified. -/
theorem logins_safe (deps : Deps) (s : Store) (cs : List Callback)
    (h : ∀ e ∈ serve deps cs s, e.Vouched) : Safe (serve deps cs s) := by
  constructor
  · intro e he e' he' res res' hres hres' hsame
    obtain ⟨m, a, hidentity, howner, -⟩ := entries_serve e he res hres
    obtain ⟨m', a', hidentity', howner', -⟩ := entries_serve e' he' res' hres'
    cases hidentity.symm.trans (hsame.trans hidentity')
    exact Option.some.inj (howner.symm.trans howner')
  · intro e he res hres hunknown
    obtain ⟨m, a, hidentity, -, hvouched⟩ := entries_serve e he res hres
    exact hvouched (h e he) (hunknown _ hidentity)

end Runs

/-! ### A run -/

def plainDeps : Deps where
  encrypt := id
  toLowerCase := id
  bind v := (v.asString).elim (.error "unsupported value") .ok
  defaultOrgId := "org_main"

def annOnly : Store where
  users := [⟨"u1", "ann@corp.com", "ann", "ann", "org_main", false⟩]
  userAuth := []

def callbackOf (provider : Provider) (body : Json.Record) : Callback where
  provider
  cfg := { allowSignup := true }
  cookieState := some "state"
  state := "state"
  exchange := .ok ⟨"token", none, none, none, none⟩
  userinfo := .ok body
  drawn := ⟨"u2", "auth-1"⟩

theorem logins_safe_ann : Safe (serve plainDeps [callbackOf .generic [("sub", .str "7"),
    ("email", .str "ann@corp.com"), ("email_verified", .bool true)]] annOnly) := by
  refine logins_safe plainDeps annOnly _ fun e he => ?_
  cases List.mem_singleton.mp he
  rintro - - body email ⟨⟩ ⟨⟩
  exact ⟨_, rfl, rfl, rfl⟩

/-- A generic provider that does not say that the e-mail is verified, and the account of a local
user. -/
theorem local_user_taken : ¬ ∀ (deps : Deps) (s : Store) (cs : List Callback),
    Safe (serve deps cs s) := by
  intro h
  have hsafe := h plainDeps annOnly
    [callbackOf .generic [("sub", .str "7"), ("email", .str "ann@corp.com")]]
  obtain ⟨body, hbody, -, hverified⟩ := hsafe.verified _ List.mem_cons_self _ rfl fun _ _ => rfl
  cases hbody
  cases hverified

end OAuth

end OpenObs.Auth
