import OpenObs.Foundation.Parts
import OpenObs.Rbac.Tokens

/-!
# Tokens of service accounts

The other half of `services/apikey-service.ts`. Whatever its kind, a token that was issued is
found as a row with the org of the issue and its principal, and the lookup answers with these.
-/

namespace OpenObs.Rbac

open OpenObs.Foundation

structure IssueSATokenInput where
  name : String
  secondsToLive : Option Int := none

structure IssuedAccountToken extends IssuedToken where
  serviceAccountId : String

namespace ApiKeyRepository

/-- The total of `list` of the account's keys: neither revoked nor expired. -/
def countByAccount (now : ℕ) (orgId serviceAccountId : String) : Prog Db ℕ :=
  Prog.read fun db => db.apiKeys.countP fun k =>
    k.orgId = orgId ∧ k.serviceAccountId = some serviceAccountId ∧ k.isRevoked = false ∧
      k.expires.all (now < ·)

end ApiKeyRepository

namespace ApiKeyService

def saPrefix : String := "openobs_sa_"

/-- `enforceTokenQuota` of a service account: the limit is that of the environment. -/
def enforceAccountQuota (envLimit : Int) (now : ℕ) (orgId serviceAccountId : String) :
    Prog Db Unit :=
  if envLimit < 0 then return ()
  else do
    let current ← (if serviceAccountId ≠ "" ∧ orgId ≠ "" then
        ApiKeyRepository.countByAccount now orgId serviceAccountId
      else pure 0)
    if envLimit ≤ current then throw "Quota exceeded" else return ()

def issueServiceAccountToken (deps : TokenDeps) (envLimit : Int) (draw : TokenDraw)
    (orgId serviceAccountId : String) (input : IssueSATokenInput) :
    Prog Db IssuedAccountToken := do
  if trim input.name = "" then throw "name is required"
  else
    match ← Prog.read (·.findUser serviceAccountId) with
    | none => throw "service account not found"
    | some sa =>
      if sa.isServiceAccount = false ∨ sa.orgId ≠ orgId then throw "service account not found"
      else do
        enforceAccountQuota envLimit draw.now orgId serviceAccountId
        match ← Prog.read (·.findMembership orgId serviceAccountId) with
        | none => throw "service account has no membership in this organization"
        | some membership => do
            let row ← ApiKeyRepository.create
              { id := draw.id
                orgId
                name := trim input.name
                key := deps.sha256Hex (saPrefix ++ draw.core)
                role := membership.role.text
                expires := computeExpiry draw.now input.secondsToLive
                serviceAccountId := some serviceAccountId }
            return ⟨⟨row.id, row.name, saPrefix ++ draw.core, orgId, none, row.expires⟩,
              serviceAccountId⟩

end ApiKeyService

/-! ## The row of a token -/

def ApiKey.principal (row : ApiKey) : Option String := row.serviceAccountId.or row.ownerUserId

def KeyOf (orgId principal key : String) (db : Db) : Prop :=
  ∃ row, db.apiKeys.find? (fun row => row.key = key ∧ row.isRevoked = false) = some row ∧
    row.orgId = orgId ∧ row.principal = some principal

theorem HoldsKey.keyOf {orgId userId key : String} {expires : Option ℕ} {db : Db}
    (h : HoldsKey orgId userId key expires db) : KeyOf orgId userId key db := by
  obtain ⟨row, hfind, hrow⟩ := h.found
  refine ⟨row, hfind, hrow.orgId, ?_⟩
  rw [ApiKey.principal, hrow.account, hrow.owner]
  rfl

theorem KeyOf.of_apiKeys {orgId principal key : String} {db db' : Db}
    (h : KeyOf orgId principal key db) (heq : db'.apiKeys = db.apiKeys) :
    KeyOf orgId principal key db' := by
  unfold KeyOf
  rw [heq]
  exact h

theorem keyOf_of_issueServiceAccountToken {deps : TokenDeps} {envLimit : Int} {draw : TokenDraw}
    {orgId serviceAccountId : String} {input : IssueSATokenInput} {db db' : Db}
    {issued : IssuedAccountToken}
    (h : (ApiKeyService.issueServiceAccountToken deps envLimit draw orgId serviceAccountId
      input).run db = (.ok issued, db')) :
    KeyOf orgId serviceAccountId (deps.sha256Hex issued.key) db' := by
  unfold ApiKeyService.issueServiceAccountToken at h
  split at h
  · cases h
  · obtain ⟨found, db₁, hfound, h⟩ := Prog.run_bind_ok h
    cases found with
    | none => cases h
    | some sa =>
      simp only at h
      split at h
      · cases h
      · obtain ⟨-, db₂, -, h⟩ := Prog.run_bind_ok h
        obtain ⟨membership, db₃, -, h⟩ := Prog.run_bind_ok h
        cases membership with
        | none => cases h
        | some membership =>
          obtain ⟨created, db₄, hcreate, h⟩ := Prog.run_bind_ok h
          obtain ⟨rfl, -, hfind⟩ := run_createKey rfl hcreate
          cases h
          exact ⟨_, hfind, rfl, rfl⟩

/-- The token was issued in the org to the user or to the service account, and `db` is what its
issue has left. -/
def IssuedIn (service : TokenDeps) (orgId principal token : String) (db : Db) : Prop :=
  (∃ draw input db₀ issued, issued.key = token ∧
    (ApiKeyService.issuePersonalAccessToken service draw orgId principal input).run db₀ =
      (.ok issued, db)) ∨
  ∃ envLimit draw input db₀ issued, issued.key = token ∧
    (ApiKeyService.issueServiceAccountToken service envLimit draw orgId principal input).run db₀ =
      (.ok issued, db)

theorem IssuedIn.keyOf {service : TokenDeps} {orgId principal token : String} {db : Db}
    (h : IssuedIn service orgId principal token db) :
    KeyOf orgId principal (service.sha256Hex token) db := by
  rcases h with ⟨draw, input, db₀, issued, rfl, hrun⟩ |
    ⟨envLimit, draw, input, db₀, issued, rfl, hrun⟩
  · exact (holdsKey_of_issue hrun).2.keyOf
  · exact keyOf_of_issueServiceAccountToken hrun

theorem validateAndLookup_some {deps : TokenDeps} {now : ℕ} {orgId principal token : String}
    {db db' : Db} {lookup : ApiKeyLookup}
    (h : (ApiKeyService.validateAndLookup deps now token).run db = (.ok (some lookup), db'))
    (hkey : KeyOf orgId principal (deps.sha256Hex token) db) :
    lookup.orgId = orgId ∧ lookup.user.id = principal := by
  obtain ⟨row, hfind, horg, hprincipal⟩ := hkey
  unfold ApiKeyService.validateAndLookup at h
  split at h
  · cases h
  · obtain ⟨found, db₁, hfound, h⟩ := Prog.run_bind_ok h
    rw [ApiKeyRepository.findByHashedKey, Prog.run_read, hfind] at hfound
    cases hfound
    simp only at h
    split at h
    · cases h
    · split at h
      · cases h
      · rw [ApiKey.principal] at hprincipal
        rw [hprincipal] at h
        simp only at h
        obtain ⟨user, db₂, huser, h⟩ := Prog.run_bind_ok h
        cases user with
        | none => cases h
        | some user =>
          simp only at h
          split at h
          · cases h
          · obtain ⟨membership, db₃, -, h⟩ := Prog.run_bind_ok h
            cases h
            refine ⟨horg, ?_⟩
            have hfound : db.findUser principal = some user :=
              Except.ok.inj (Prod.mk.inj huser).1
            simpa using List.find?_some hfound

end OpenObs.Rbac
