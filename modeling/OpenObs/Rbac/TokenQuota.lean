import OpenObs.Foundation.Machine
import OpenObs.Rbac.AccountTokens

/-!
# The quota of tokens

Runs of the two issues and of `revoke`, by a clock that does not go back. The guard of a
service account counts the keys the limit is about; the guard of a user counts those of the
org `''`.
-/

namespace OpenObs.Rbac

open OpenObs.Foundation

namespace ApiKeyService

/-- `revoke`: the key must be one of the org; revoking it again does nothing. -/
def revoke (orgId keyId : String) : Prog Db Unit := do
  match ← Prog.read fun db => db.apiKeys.find? (·.id = keyId) with
  | none => throw "api key not found"
  | some row =>
    if row.orgId ≠ orgId then throw "api key not found"
    else if row.isRevoked then return ()
    else
      Prog.write fun db => { db with apiKeys := db.apiKeys.map fun k =>
        if k.id = keyId then { k with isRevoked := true } else k }

end ApiKeyService

namespace TokenQuota

structure Config where
  deps : TokenDeps
  accountLimit : Int := -1

inductive TokenCall : Type where
  | issuePersonal (draw : TokenDraw) (orgId userId : String) (input : IssuePATInput)
  | issueAccount (draw : TokenDraw) (orgId serviceAccountId : String) (input : IssueSATokenInput)
  | revoke (now : ℕ) (orgId keyId : String)

def TokenCall.now : TokenCall → ℕ
  | .issuePersonal draw _ _ _ => draw.now
  | .issueAccount draw _ _ _ => draw.now
  | .revoke now _ _ => now

def TokenCall.code (cfg : Config) : TokenCall → Prog Db Unit
  | .issuePersonal draw orgId userId input => do
      let _ ← ApiKeyService.issuePersonalAccessToken cfg.deps draw orgId userId input
      return ()
  | .issueAccount draw orgId serviceAccountId input => do
      let _ ← ApiKeyService.issueServiceAccountToken cfg.deps cfg.accountLimit draw orgId
        serviceAccountId input
      return ()
  | .revoke _ orgId keyId => ApiKeyService.revoke orgId keyId

structure State where
  db : Db
  now : ℕ

def step (cfg : Config) (s : State) (call : TokenCall) : Option State :=
  if call.now < s.now then none else some ⟨((call.code cfg).run s.db).2, call.now⟩

/-! ## What the limits are about -/

def active (now : ℕ) (k : ApiKey) : Bool :=
  k.isRevoked = false ∧ k.expires.all (now < ·)

def activeCount (now : ℕ) (owned : ApiKey → Bool) (rows : List ApiKey) : ℕ :=
  rows.countP fun k => owned k && active now k

/-- Of the keys issued behind the first `n` rows, no more are active than the limit, now and
later. -/
def Within (n : ℕ) (owned : ApiKey → Bool) (limit : Int) (s : State) : Prop :=
  ∀ now, s.now ≤ now → (activeCount now owned (s.db.apiKeys.drop n) : Int) ≤ limit

section Counting

variable {now now' : ℕ} {owned : ApiKey → Bool} {rows : List ApiKey}

theorem activeCount_other {row : ApiKey} (h : owned row = false) :
    activeCount now owned (rows ++ [row]) = activeCount now owned rows := by
  rw [activeCount, List.countP_append, List.countP_singleton, h]
  rfl

end Counting

/-! ## What a call does -/

structure Appended (row : ApiKey) (db db' : Db) : Prop where
  rows : db'.apiKeys = db.apiKeys ++ [row]
  rest : db' = { db with apiKeys := db'.apiKeys }

structure Revoked (f : ApiKey → ApiKey) (db db' : Db) : Prop where
  rows : db'.apiKeys = db.apiKeys.map f
  rest : db' = { db with apiKeys := db'.apiKeys }
  kept : ∀ k, f k = { k with isRevoked := (f k).isRevoked }
  stays : ∀ k, k.isRevoked = true → (f k).isRevoked = true

theorem Revoked.refl (db : Db) : Revoked id db db :=
  ⟨(List.map_id _).symm, rfl, fun _ => rfl, fun _ h => h⟩

section Effects

variable {cfg : Config} {draw : TokenDraw} {orgId userId serviceAccountId keyId : String}
  {db : Db}

end Effects

/-! ## Steps within the limit -/

section Steps

variable {cfg : Config} {n : ℕ} {owned : ApiKey → Bool} {limit : Int} {s s' : State}
  {row : ApiKey}

theorem Within.still (h : Within n owned limit s) (hrows : s'.db.apiKeys = s.db.apiKeys)
    (hnow : s.now ≤ s'.now) : Within n owned limit s' := by
  intro now hle
  rw [hrows]
  exact h now (hnow.trans hle)

theorem Within.other (h : Within n owned limit s) (happended : Appended row s.db s'.db)
    (hlength : n ≤ s.db.apiKeys.length) (hrow : owned row = false) (hnow : s.now ≤ s'.now) :
    Within n owned limit s' := by
  intro now hle
  rw [happended.rows, List.drop_append_of_le_length hlength, activeCount_other hrow]
  exact h now (hnow.trans hle)

theorem Appended.length (h : Appended row s.db s'.db) (hlength : n ≤ s.db.apiKeys.length) :
    n ≤ s'.db.apiKeys.length := by
  rw [h.rows, List.length_append]
  exact hlength.trans (Nat.le_add_right _ _)

theorem Revoked.length {f : ApiKey → ApiKey} (h : Revoked f s.db s'.db)
    (hlength : n ≤ s.db.apiKeys.length) : n ≤ s'.db.apiKeys.length := by
  rwa [h.rows, List.length_map]

end Steps

/-! ## The users -/

section Users

variable {cfg : Config} {n : ℕ} {s s' : State} {call : TokenCall}

end Users

/-! ## The accounts -/

def AtHome (n : ℕ) (db : Db) : Prop :=
  ∀ k ∈ db.apiKeys.drop n, ∀ serviceAccountId, k.serviceAccountId = some serviceAccountId →
    ∃ sa, db.findUser serviceAccountId = some sa ∧ sa.orgId = k.orgId

section Accounts

variable {cfg : Config} {n : ℕ} {s s' : State} {call : TokenCall}

end Accounts

/-! ## Runs -/

end TokenQuota

end OpenObs.Rbac
