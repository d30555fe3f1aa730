import OpenObs.Rbac.Membership

/-!
# API tokens

`services/apikey-service.ts`: personal access tokens and the lookup the middleware makes. A token is
stored by its hash.
-/

namespace OpenObs.Rbac

open OpenObs.Foundation

/-! ## Roles in order -/

def OrgRole.rank : OrgRole → ℕ
  | .none => 0
  | .viewer => 1
  | .editor => 2
  | .admin => 3

def Db.currentRole (db : Db) (orgId userId : String) : OrgRole :=
  ((db.findMembership orgId userId).map (·.role)).getD .none

/-! ## The service -/

/-- `s.trim()`. -/
def trim (s : String) : String :=
  String.ofList (((s.toList.dropWhile Scan.isSpace).reverse.dropWhile Scan.isSpace).reverse)

structure IssuePATInput where
  name : String
  secondsToLive : Option Int := none
  role : Option String := none

structure IssuedToken where
  id : String
  name : String
  key : String
  orgId : String
  ownerUserId : Option String
  expires : Option ℕ

structure ApiKeyLookup where
  user : User
  orgId : String
  role : OrgRole
  serviceAccountId : Option String
  keyId : String
  isServerAdmin : Bool

/-- What the service is built with: the hash, the limit of the environment, and
whether there are quotas. -/
structure TokenDeps where
  sha256Hex : String → String
  envLimit : Int := -1
  quotas : Bool := true

structure TokenDraw where
  now : ℕ
  core : String
  id : String

namespace ApiKeyRepository

def create (row : ApiKey) : Prog Db ApiKey :=
  Prog.attempt fun db =>
    if row.key ∈ db.apiKeys.map (·.key) then (.error "UNIQUE constraint failed: api_key.key", db)
    else if row.orgId ∉ db.orgs ∨ row.serviceAccountId.any (fun id => (db.findUser id).isNone) ∨
        row.ownerUserId.any (fun id => (db.findUser id).isNone) then
      (.error "FOREIGN KEY constraint failed", db)
    else (.ok row, { db with apiKeys := db.apiKeys ++ [row] })

/-- `findByHashedKey`: revoked keys are not found. -/
def findByHashedKey (key : String) : Prog Db (Option ApiKey) :=
  Prog.read fun db => db.apiKeys.find? fun row => row.key = key ∧ row.isRevoked = false

end ApiKeyRepository

namespace ApiKeyService

def patPrefix : String := "openobs_pat_"

/-- `computeExpiry`. -/
def computeExpiry (now : ℕ) : Option Int → Option ℕ
  | none => none
  | some secondsToLive =>
    if secondsToLive ≤ 0 then none else some (now + 1000 * secondsToLive.toNat)

/-- `listByOwner`: of the personal tokens of an org, those of the user among the
thousand newest. -/
def listByOwner (orgId userId : String) : Prog Db (List ApiKey) :=
  Prog.read fun db =>
    ((db.apiKeys.filter fun k => k.orgId = orgId ∧ k.serviceAccountId = none).reverse.take
      1000).filter (·.ownerUserId = some userId)

def findUserQuota (deps : TokenDeps) (userId : String) : Prog Db (Option UserQuota) :=
  if deps.quotas ∧ userId ≠ "" then
    Prog.read fun db => db.userQuotas.find? fun q => q.userId = userId ∧ q.target = "api_keys"
  else return none

/-- `enforceTokenQuota` of a user. -/
def enforceTokenQuota (deps : TokenDeps) (userId : String) : Prog Db Unit := do
  let quota ← findUserQuota deps userId
  let limit := (quota.map (·.limitVal)).getD deps.envLimit
  if limit < 0 then return ()
  else do
    let rows ← (if userId = "" then pure [] else listByOwner "" userId)
    if limit ≤ (rows.filter (·.isRevoked = false)).length then throw "Quota exceeded"
    else return ()

def issuePersonalAccessToken (deps : TokenDeps) (draw : TokenDraw) (orgId userId : String)
    (input : IssuePATInput) : Prog Db IssuedToken := do
  if trim input.name = "" then throw "name is required"
  else if input.role.any (fun r => (OrgRole.ofText r).isNone) then
    throw "role must be one of: Admin, Editor, Viewer, None"
  else
    match ← Prog.read (·.findUser userId) with
    | none => throw "user not found"
    | some user =>
      if user.isServiceAccount then throw "service accounts must use SA tokens"
      else do
        enforceTokenQuota deps userId
        match ← Prog.read (·.findMembership orgId userId) with
        | none => throw "user has no membership in this organization"
        | some membership => do
            let row ← ApiKeyRepository.create
              { id := draw.id
                orgId
                name := trim input.name
                key := deps.sha256Hex (patPrefix ++ draw.core)
                role := input.role.getD membership.role.text
                expires := computeExpiry draw.now input.secondsToLive
                ownerUserId := some userId }
            return ⟨row.id, row.name, patPrefix ++ draw.core, orgId, some userId, row.expires⟩

def validateAndLookup (deps : TokenDeps) (now : ℕ) (rawToken : String) :
    Prog Db (Option ApiKeyLookup) := do
  if rawToken = "" then return none
  else
    match ← ApiKeyRepository.findByHashedKey (deps.sha256Hex rawToken) with
    | none => return none
    | some row =>
      if row.isRevoked then return none
      else if row.expires.any (· < now) then return none
      else
        match row.serviceAccountId.or row.ownerUserId with
        | none => return none
        | some principalId => do
            match ← Prog.read (·.findUser principalId) with
            | none => return none
            | some user =>
              if user.isDisabled then return none
              else do
                let membership ← Prog.read (·.findMembership row.orgId principalId)
                return some ⟨user, row.orgId, (membership.map (·.role)).getD .none,
                  row.serviceAccountId, row.id, user.isAdmin⟩

end ApiKeyService

/-! ## What an issue stores -/

structure PersonalKey (orgId userId key : String) (expires : Option ℕ) (row : ApiKey) : Prop where
  orgId : row.orgId = orgId
  owner : row.ownerUserId = some userId
  account : row.serviceAccountId = none
  key : row.key = key
  active : row.isRevoked = false
  expires : row.expires = expires

structure HoldsKey (orgId userId key : String) (expires : Option ℕ) (db : Db) : Prop where
  found : ∃ row, db.apiKeys.find? (fun row => row.key = key ∧ row.isRevoked = false) = some row ∧
    PersonalKey orgId userId key expires row
  owner : (db.findUser userId).isSome = true

theorem run_enforceTokenQuota (deps : TokenDeps) (userId : String) (db : Db) :
    ((ApiKeyService.enforceTokenQuota deps userId).run db).2 = db := by
  rw [ApiKeyService.enforceTokenQuota, Prog.run_bind]
  have hquota : ∃ quota, (ApiKeyService.findUserQuota deps userId).run db = (.ok quota, db) := by
    rw [ApiKeyService.findUserQuota]
    split
    · exact ⟨_, rfl⟩
    · exact ⟨none, rfl⟩
  obtain ⟨quota, hquota⟩ := hquota
  rw [hquota]
  show (Prog.run (if _ then _ else _) db).2 = db
  split
  · rfl
  · have hrows : ∃ rows, Prog.run (if userId = "" then pure [] else
        ApiKeyService.listByOwner "" userId) db = (.ok rows, db) := by
      split <;> exact ⟨_, rfl⟩
    obtain ⟨rows, hrows⟩ := hrows
    rw [Prog.run_bind, hrows]
    show (Prog.run (if _ then _ else _) db).2 = db
    split <;> rfl

theorem run_createKey {row created : ApiKey} {db db' : Db} (hactive : row.isRevoked = false)
    (h : (ApiKeyRepository.create row).run db = (.ok created, db')) :
    created = row ∧ db' = { db with apiKeys := db.apiKeys ++ [row] } ∧
      db'.apiKeys.find? (fun r => r.key = row.key ∧ r.isRevoked = false) = some row := by
  rw [ApiKeyRepository.create, Prog.run_attempt] at h
  split at h
  · cases h
  · rename_i hkey
    split at h
    · cases h
    · cases h
      refine ⟨rfl, rfl, ?_⟩
      have hnone : db.apiKeys.find? (fun r => r.key = row.key ∧ r.isRevoked = false) = none := by
        rw [List.find?_eq_none]
        intro r hr hcond
        exact hkey (List.mem_map.mpr ⟨r, hr, (of_decide_eq_true hcond).1⟩)
      show (db.apiKeys ++ [row]).find? _ = some row
      rw [List.find?_append, hnone]
      simp [hactive]

/-- **What an issue leaves.** -/
theorem holdsKey_of_issue {deps : TokenDeps} {draw : TokenDraw} {orgId userId : String}
    {input : IssuePATInput} {db db' : Db} {issued : IssuedToken}
    (h : (ApiKeyService.issuePersonalAccessToken deps draw orgId userId input).run db =
      (.ok issued, db')) :
    issued.key = ApiKeyService.patPrefix ++ draw.core ∧
    HoldsKey orgId userId (deps.sha256Hex issued.key) issued.expires db' := by
  rw [ApiKeyService.issuePersonalAccessToken] at h
  split at h
  · cases h
  · split at h
    · cases h
    · rw [Prog.run_bind, Prog.run_read] at h
      cases huser : db.findUser userId with
      | none =>
        rw [huser] at h
        cases h
      | some user =>
        simp only [huser] at h
        split at h
        · cases h
        · rw [Prog.run_bind] at h
          split at h
          · rename_i u db₁ hquota
            obtain rfl : db₁ = db := by
              have := run_enforceTokenQuota deps userId db
              rw [hquota] at this
              exact this
            rw [Prog.run_bind, Prog.run_read] at h
            cases hmember : db₁.findMembership orgId userId with
            | none =>
              rw [hmember] at h
              cases h
            | some membership =>
              simp only [hmember] at h
              rw [Prog.run_bind] at h
              split at h
              · rename_i created db₂ hcreate
                obtain ⟨hrow, hdb, hfind⟩ := run_createKey rfl hcreate
                cases h
                subst hrow
                refine ⟨rfl, ⟨_, hfind, rfl, rfl, rfl, rfl, rfl, rfl⟩, ?_⟩
                rw [hdb]
                show (db₁.findUser userId).isSome = true
                rw [huser]
                rfl
              · cases h
          · cases h

/-! ## The lookup -/

/-- **The lookup of a personal token**: nothing once it expired or its owner is
disabled, else the role the owner has in the org now. -/
theorem run_validateAndLookup {deps : TokenDeps} {now : ℕ} {orgId userId token : String}
    {expires : Option ℕ} {db : Db} (htoken : token ≠ "")
    (h : HoldsKey orgId userId (deps.sha256Hex token) expires db) :
    ∃ out, (ApiKeyService.validateAndLookup deps now token).run db = (.ok out, db) ∧
      (∀ look, out = some look →
        look.orgId = orgId ∧ look.role = db.currentRole orgId userId) ∧
      (out = none ↔ expires.any (· < now) = true ∨ (db.findUser userId).any (·.isDisabled) = true)
      := by
  obtain ⟨row, hfind, hrow⟩ := h.found
  obtain ⟨user, huser⟩ := Option.isSome_iff_exists.mp h.owner
  have hrun : (ApiKeyService.validateAndLookup deps now token).run db =
      (.ok (if row.expires.any (· < now) then none else if user.isDisabled then none else
        some ⟨user, row.orgId, ((db.findMembership row.orgId userId).map (·.role)).getD .none,
          row.serviceAccountId, row.id, user.isAdmin⟩), db) := by
    rw [ApiKeyService.validateAndLookup, if_neg htoken, Prog.run_bind,
      ApiKeyRepository.findByHashedKey, Prog.run_read, hfind]
    simp only [hrow.active, Bool.false_eq_true, if_false]
    split
    · rfl
    · simp only [hrow.account, hrow.owner, Option.none_or]
      rw [Prog.run_bind, Prog.run_read, huser]
      simp only
      split
      · rfl
      · rfl
  rw [hrow.expires, hrow.orgId] at hrun
  refine ⟨_, hrun, fun look hlook => ?_, ?_⟩
  · split at hlook
    · cases hlook
    · split at hlook
      · cases hlook
      · cases hlook
        exact ⟨rfl, rfl⟩
  · rw [huser]
    by_cases hexp : expires.any (· < now) = true
    · simp [hexp]
    · cases hdis : user.isDisabled <;> simp [hexp, hdis]

/-! ## Changes of the membership -/

inductive MembershipChange : Type where
  | add (orgId loginOrEmail role : String)
  | update (orgId userId role : String)
  | remove (orgId userId : String)

def MembershipChange.code (defaultOrgId : String) : MembershipChange → Prog Db Unit
  | .add orgId loginOrEmail role => AccessOp.code defaultOrgId (.addUser orgId loginOrEmail role)
  | .update orgId userId role => AccessOp.code defaultOrgId (.updateUserRole orgId userId role)
  | .remove orgId userId => AccessOp.code defaultOrgId (.removeUser orgId userId)

theorem MembershipChange.step (defaultOrgId : String) (c : MembershipChange) (db : Db) :
    MembersStep (fun _ _ => True) db ((c.code defaultOrgId).run db).2 := by
  refine Prog.run_related MembersStep.refl (fun _ _ _ => MembersStep.trans) ?_
  cases c with
  | add orgId loginOrEmail role =>
    exact Prog.Holds.bind_any MembersStep.holds_addUser fun _ _ => trivial
  | update orgId userId role =>
    exact Prog.Holds.bind_any MembersStep.holds_updateUserRole fun _ _ => trivial
  | remove orgId userId => exact MembersStep.holds_removeUser trivial

theorem HoldsKey.changes {orgId userId key : String} {expires : Option ℕ} (defaultOrgId : String)
    (cs : List MembershipChange) : ∀ {db : Db}, HoldsKey orgId userId key expires db →
      HoldsKey orgId userId key expires (serveAll (MembershipChange.code defaultOrgId) cs db) := by
  induction cs with
  | nil => exact fun h => h
  | cons c cs ih =>
    intro db h
    have hstep := c.step defaultOrgId db
    refine ih ⟨?_, ?_⟩
    · have hkeys : ((c.code defaultOrgId).run db).2.apiKeys = db.apiKeys := by rw [hstep.frame]
      rw [hkeys]
      exact h.found
    · rw [hstep.users]
      exact h.owner

/-- **A personal token has its owner's role.** After an issue with any accepted role
and any changes of memberships, the lookup of the token answers with the role the
owner has in the token's org then, and it answers unless the token expired or the
owner is disabled. -/
theorem token_role_is_membership_role (deps : TokenDeps) (draw : TokenDraw)
    (orgId userId : String) (input : IssuePATInput) (db db' : Db) (issued : IssuedToken)
    (hissue : (ApiKeyService.issuePersonalAccessToken deps draw orgId userId input).run db =
      (.ok issued, db'))
    (defaultOrgId : String) (changes : List MembershipChange) (now : ℕ) :
    ∃ out, (ApiKeyService.validateAndLookup deps now issued.key).run
        (serveAll (MembershipChange.code defaultOrgId) changes db') =
          (.ok out, serveAll (MembershipChange.code defaultOrgId) changes db') ∧
      (∀ look, out = some look → look.orgId = orgId ∧ look.role =
        (serveAll (MembershipChange.code defaultOrgId) changes db').currentRole orgId userId) ∧
      (out = none ↔ issued.expires.any (· < now) = true ∨
        ((serveAll (MembershipChange.code defaultOrgId) changes db').findUser userId).any
          (·.isDisabled) = true) := by
  obtain ⟨hkey, hholds⟩ := holdsKey_of_issue hissue
  have htoken : issued.key ≠ "" := by
    rw [hkey]
    intro h
    have := congrArg String.toList h
    simp [ApiKeyService.patPrefix] at this
  exact run_validateAndLookup htoken (hholds.changes defaultOrgId changes)

/-! ### An editor's token -/

def editorDb : Db :=
  { orgs := ["org"]
    users := [⟨"u", "u", "u@example", "org", false, false, false⟩]
    orgUsers := [⟨"org", "u", .editor⟩] }

def plainDeps : TokenDeps := { sha256Hex := fun s => s }

/-- A token asked for with the role `Viewer`. -/
def viewerInput : IssuePATInput := { name := "cli", role := some "Viewer" }

def viewerIssue : Except String IssuedToken × Db :=
  (ApiKeyService.issuePersonalAccessToken plainDeps ⟨0, "x", "k"⟩ "org" "u" viewerInput).run
    editorDb

theorem token_role_is_membership_role_demoted :
    ∃ issued out, viewerIssue.1 = .ok issued ∧
      (ApiKeyService.validateAndLookup plainDeps 1 issued.key).run
        (serveAll (MembershipChange.code "org") [.update "org" "u" "None"] viewerIssue.2) =
          (.ok out, serveAll (MembershipChange.code "org") [.update "org" "u" "None"]
            viewerIssue.2) ∧
      ∀ look, out = some look → look.role = .none := by
  have hok : viewerIssue.1.toBool = true := by decide +kernel
  have hrole : (serveAll (MembershipChange.code "org") [.update "org" "u" "None"]
      viewerIssue.2).currentRole "org" "u" = .none := by decide +kernel
  cases hissue : viewerIssue.1 with
  | error e =>
    rw [hissue] at hok
    cases hok
  | ok issued =>
    obtain ⟨out, hrun, hlook, -⟩ := token_role_is_membership_role plainDeps ⟨0, "x", "k"⟩ "org"
      "u" viewerInput editorDb viewerIssue.2 issued (Prod.ext hissue rfl) "org"
      [.update "org" "u" "None"] 1
    refine ⟨issued, out, rfl, hrun, fun look h => ?_⟩
    rw [(hlook look h).2]
    exact hrole

/-- **The role of the issue is no bound.** A token issued with the role `Viewer` looks
up as `Editor`. -/
theorem token_exceeds_issued_role :
    ∃ issued look, viewerIssue.1 = .ok issued ∧
      ((ApiKeyService.validateAndLookup plainDeps 1 issued.key).run viewerIssue.2).1 =
        .ok (some look) ∧ viewerInput.role = some OrgRole.viewer.text ∧
      ¬ look.role.rank ≤ OrgRole.viewer.rank := by
  refine ⟨⟨"k", "cli", "openobs_pat_x", "org", some "u", none⟩,
    ⟨⟨"u", "u", "u@example", "org", false, false, false⟩, "org", .editor, none, "k", false⟩,
    ?_, ?_, rfl, by decide⟩
  · rfl
  · rfl

end OpenObs.Rbac
