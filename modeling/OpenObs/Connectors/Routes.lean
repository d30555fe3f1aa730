import OpenObs.Connectors.Repository
import OpenObs.Rbac.AccessControl

/-!
# The connector routes

`routes/connectors.ts` over `connector-service.ts`, with the gate of `require-permission.ts` in
front. A request carries what the clock, the random draw and access control answer to it.
-/

namespace OpenObs.Connectors

open OpenObs.Foundation OpenObs.Rbac

/-! ## Requests and replies -/

structure Caller where
  allowBootstrapUnauthenticated : Bool := false
  auth : Option Identity
  evaluate : Identity → Evaluator → Except String Bool

structure ConnectorBody where
  id : Option String := none
  type : Option String := none
  name : Option String := none
  config : Option Json.Record := none
  isDefault : Option Bool := none
  status : Option ConnectorStatus := none

inductive TableRoute : Type where
  | list (status category capability : Option String)
  | create (body : ConnectorBody)
  | get (id : String)
  | update (id : String) (body : ConnectorBody)
  | delete (id : String)
  | test (id : String)

inductive Route : Type where
  | table (route : TableRoute)
  | secret (id : String) (secret : Option String)

structure ConnectorRequest where
  caller : Caller
  randomUUID : String
  now : String
  route : Route

inductive Reply : Type where
  | connectors (connectors : List Connector)
  | connector (status : ℕ) (connector : Connector)
  | tested (ok : Bool) (capabilities : List String)
  | done                                            -- `{ ok: true }`
  | error (status : ℕ) (code message : String)

/-! ## The gate -/

def ConnectorsRouter.connectorScope (id : String) : String :=
  if id = "*" then "connectors:*" else "connectors:uid:" ++ id

def TableRoute.evaluator : TableRoute → Evaluator
  | .list _ _ _ => .action "connectors:read" [ConnectorsRouter.connectorScope "*"]
  | .create _ => .action "connectors:create" [ConnectorsRouter.connectorScope "*"]
  | .get id => .action "connectors:read" [ConnectorsRouter.connectorScope id]
  | .update id _ => .action "connectors:write" [ConnectorsRouter.connectorScope id]
  | .delete id => .action "connectors:delete" [ConnectorsRouter.connectorScope id]
  | .test id => .action "connectors:test" [ConnectorsRouter.connectorScope id]

def Route.evaluator : Route → Evaluator
  | .table route => route.evaluator
  | .secret id _ => .action "connectors:write" [ConnectorsRouter.connectorScope id]

/-- The refusal of the permission gate; `.ok` is `next()`. -/
def requirePermission (caller : Caller) (evaluator : Evaluator) : Except Reply Unit :=
  if caller.allowBootstrapUnauthenticated then .ok ()
  else
    match caller.auth with
    | none => .error (.error 401 "UNAUTHORIZED" "authentication required")
    | some identity =>
      match caller.evaluate identity evaluator with
      | .ok true => .ok ()
      | .ok false =>
        .error (.error 403 "FORBIDDEN" ("User has no permission to " ++ evaluator.string))
      | .error e => .error (.error 500 "INTERNAL_ERROR" ("permission check failed: " ++ e))

def requireOrg (caller : Caller) : Except Reply String :=
  match caller.auth with
  | none => .error (.error 403 "FORBIDDEN" "org context is required")
  | some identity =>
    if identity.orgId = "" then .error (.error 403 "FORBIDDEN" "org context is required")
    else .ok identity.orgId

def userIdFromReq (caller : Caller) : String := (caller.auth.map (·.userId)).getD "system"

def ConnectorRequest.admitted (req : ConnectorRequest) : Except Reply String := do
  requirePermission req.caller req.route.evaluator
  requireOrg req.caller

/-! ## The service -/

/-- `ConnectorSecretStore.put` of a store with the state `V`. -/
abbrev SecretStore (V : Type) : Type :=
  (connectorId orgId plaintext : String) → V → Except String Unit × V

/-- The tables, the state of the secret store, and of every secret that was stored in the tables
the plaintext and the bytes that were stored for it. -/
structure ConnectorState (V : Type) where
  db : ConnectorDb
  vault : V
  written : List (String × ByteArray) := []

namespace ConnectorState

variable {V : Type}

def tables : Part (ConnectorState V) ConnectorDb where
  get s := s.db
  set db s := { s with db := db }
  get_set _ _ := rfl
  set_get _ := rfl
  set_set _ _ _ := rfl

def store : Part (ConnectorState V) V where
  get s := s.vault
  set v s := { s with vault := v }
  get_set _ _ := rfl
  set_get _ := rfl
  set_set _ _ _ := rfl

variable {s : ConnectorState V}

@[simp] theorem tables_get : tables.get s = s.db := rfl

@[simp] theorem tables_set {db : ConnectorDb} : tables.set db s = { s with db := db } := rfl

@[simp] theorem store_get : store.get s = s.vault := rfl

@[simp] theorem store_set {v : V} : store.set v s = { s with vault := v } := rfl

end ConnectorState

namespace ConnectorDb

variable (db : ConnectorDb)

def getSecret (connectorId : String) : Option ConnectorSecret :=
  db.secrets.find? (·.connectorId = connectorId)

/-- `INSERT … ON CONFLICT(connector_id) DO UPDATE`, with the key of the connector. -/
def putSecret (now connectorId : String) (ciphertext : ByteArray) (keyVersion : ℕ) :
    Except String ConnectorDb :=
  if connectorId ∉ db.connectors.map (·.id) then .error "FOREIGN KEY constraint failed"
  else if (db.getSecret connectorId).isSome then
    .ok { db with secrets := db.secrets.map fun r =>
            if r.connectorId = connectorId then
              { r with ciphertext := ciphertext, keyVersion := keyVersion, updatedAt := now }
            else r }
  else
    .ok { db with secrets := db.secrets ++ [⟨connectorId, ciphertext, keyVersion, now, now⟩] }

end ConnectorDb

/-- `ConnectorRepository.upsertSecret`, of which the caller uses nothing but the failure. -/
def ConnectorRepository.upsertSecret (now connectorId : String) (ciphertext : ByteArray)
    (keyVersion : ℕ) : Prog ConnectorDb Unit := do
  let _ ← Prog.read (·.getSecret connectorId)
  withTransaction fun db => db.putSecret now connectorId ciphertext keyVersion
  match ← Prog.read (·.getSecret connectorId) with
  | none => throw ("[ConnectorRepository] upsertSecret: row " ++ connectorId ++ " not found")
  | some _ => return ()

namespace ConnectorService

variable {V : Type}

/-- `input` is of the request, so that the id is drawn when the request names none. -/
def create (randomUUID now : String) (input : NewConnector) : Prog ConnectorDb Connector :=
  ConnectorRepository.create "" now { input with id := some (input.id.getD randomUUID) }

/-- `DEFAULT_CAPABILITIES` is the column of the templates. -/
def capabilitiesForType (type : String) : List String :=
  ((connectorTemplate type).map (·.2)).getD []

def test (orgId id : String) : Prog ConnectorDb (Option (Bool × List String)) := do
  match ← Prog.read (·.get id orgId) with
  | none => return none
  | some connector => return some (true, capabilitiesForType connector.type)

def putSecret (secrets : Option (SecretStore V)) (now orgId id plaintext : String) :
    Prog (ConnectorState V) Bool := do
  match ← (Prog.read (·.get id orgId)).zoom ConnectorState.tables with
  | none => return false
  | some _ =>
    match secrets with
    | some put => (Prog.attempt (put id orgId plaintext)).zoom ConnectorState.store
    | none => do
        let ciphertext := plaintext.toUTF8
        (ConnectorRepository.upsertSecret now id ciphertext 1).zoom ConnectorState.tables
        Prog.write fun s => { s with written := s.written ++ [(plaintext, ciphertext)] }
    return true

end ConnectorService

/-! ## The routes -/

def notFound (id : String) : Reply :=
  .error 404 "NOT_FOUND" ("Connector \"" ++ id ++ "\" not found")

def maskForWire (connector : Connector) : Connector :=
  { connector with config := connector.config }

def readStatus : Option String → Option ConnectorStatus
  | some "draft" => some .draft
  | some "active" => some .active
  | some "failed" => some .failed
  | some "disabled" => some .disabled
  | _ => none

def listRoute (status category capability : Option String) (orgId : String) :
    Prog ConnectorDb Reply := do
  let connectors ← Prog.read (·.list ⟨orgId, category, capability, readStatus status⟩)
  return .connectors (connectors.map maskForWire)

def createRoute (req : ConnectorRequest) (body : ConnectorBody) (orgId : String) :
    Prog ConnectorDb Reply :=
  match present body.type, present body.name, body.config with
  | some type, some name, some config => do
      let existing ← match present body.id with
        | none => pure none
        | some id => Prog.read (·.get id orgId)
      match existing with
      | some _ =>
        return .error 409 "CONFLICT" ("Connector \"" ++ body.id.getD "" ++ "\" already exists")
      | none => do
          let connector ← ConnectorService.create req.randomUUID req.now
            { id := body.id
              orgId := orgId
              type := type
              name := name
              config := some config
              isDefault := some (body.isDefault.getD false)
              createdBy := userIdFromReq req.caller }
          return .connector 201 (maskForWire connector)
  | _, _, _ => return .error 400 "VALIDATION" "type, name, and config are required"

def getRoute (id orgId : String) : Prog ConnectorDb Reply := do
  match ← Prog.read (·.get id orgId) with
  | none => return notFound id
  | some connector => return .connector 200 (maskForWire connector)

def ConnectorBody.patch (body : ConnectorBody) : ConnectorPatch where
  name := body.name
  config := body.config
  status := body.status
  isDefault := body.isDefault

def updateRoute (req : ConnectorRequest) (id : String) (body : ConnectorBody) (orgId : String) :
    Prog ConnectorDb Reply := do
  match ← ConnectorRepository.update req.now id body.patch orgId with
  | none => return notFound id
  | some connector => return .connector 200 (maskForWire connector)

def deleteRoute (id orgId : String) : Prog ConnectorDb Reply := do
  if ← ConnectorRepository.delete id orgId then return .done else return notFound id

def testRoute (id orgId : String) : Prog ConnectorDb Reply := do
  match ← ConnectorService.test orgId id with
  | none => return notFound id
  | some (ok, capabilities) => return .tested ok capabilities

def TableRoute.serve (req : ConnectorRequest) (orgId : String) :
    TableRoute → Prog ConnectorDb Reply
  | .list status category capability => listRoute status category capability orgId
  | .create body => createRoute req body orgId
  | .get id => getRoute id orgId
  | .update id body => updateRoute req id body orgId
  | .delete id => deleteRoute id orgId
  | .test id => testRoute id orgId

section Serving

variable {V : Type} (secrets : Option (SecretStore V))

def secretRoute (req : ConnectorRequest) (id : String) (secret : Option String) (orgId : String) :
    Prog (ConnectorState V) Reply :=
  match present secret with
  | none => return .error 400 "VALIDATION" "secret is required"
  | some plaintext => do
      if ← ConnectorService.putSecret secrets req.now orgId id plaintext then return .done
      else return notFound id

def Route.serve (req : ConnectorRequest) (orgId : String) : Route → Prog (ConnectorState V) Reply
  | .table route => (route.serve req orgId).zoom ConnectorState.tables
  | .secret id text => secretRoute secrets req id text orgId

def serve (req : ConnectorRequest) : Prog (ConnectorState V) Reply :=
  match req.admitted with
  | .error refusal => return refusal
  | .ok orgId => req.route.serve secrets req orgId

end Serving

end OpenObs.Connectors
