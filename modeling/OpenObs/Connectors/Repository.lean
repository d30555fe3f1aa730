import OpenObs.Foundation.Json
import OpenObs.Foundation.Parts

/-!
# The connector repository

`repository/sqlite/connector.ts` over its tables, with the constraints of `sqlite-schema.sql`: the
primary key, one name per org and type, one default per org and type, and the key of the org. A
transaction is one section, and so is a query by itself.
-/

namespace OpenObs.Connectors

open OpenObs.Foundation

/-! ## Templates -/

/-- The categories and the capabilities of a type; `none` for a text that is no type. -/
def connectorTemplate (type : String) : Option (List String × List String) :=
  let metrics := ["metrics.discover", "metrics.query", "metrics.validate"]
  [("prometheus", (["observability"], metrics)),
    ("victoria-metrics", (["observability"], metrics)),
    ("loki", (["observability"], ["logs.query", "logs.stream"])),
    ("elasticsearch", (["observability"], ["logs.query"])),
    ("clickhouse", (["observability"], ["logs.query"])),
    ("tempo", (["observability"], ["traces.query"])),
    ("jaeger", (["observability"], ["traces.query"])),
    ("otel", (["observability"], ["traces.query"])),
    ("kubernetes", (["runtime"], ["runtime.get", "runtime.list", "runtime.logs", "runtime.events",
      "runtime.restart", "runtime.scale", "runtime.rollout", "runtime.delete"])),
    ("github", (["code", "change"], ["vcs.repo.read", "vcs.diff.read", "vcs.pr.read",
      "vcs.pr.comment", "vcs.pr.create", "change.event.read"]))].lookup type

def typeMatchesCategory (type : String) : Option String → Bool
  | none => true
  | some "" => true
  | some category => (connectorTemplate type).any fun t => decide (category ∈ t.1)

/-! ## Tables -/

inductive ConnectorStatus : Type where
  | draft | active | failed | disabled
deriving DecidableEq

/-- A row of `connectors`. -/
structure ConnectorRow where
  id : String
  orgId : String
  type : String
  name : String
  config : Json.Record
  status : ConnectorStatus
  lastVerifiedAt : Option String
  lastVerifyError : Option String
  isDefault : Bool
  createdBy : String
  createdAt : String
  updatedAt : String

/-- A row of `connector_secrets`. -/
structure ConnectorSecret where
  connectorId : String
  ciphertext : ByteArray
  keyVersion : ℕ
  createdAt : String
  updatedAt : String

structure ConnectorDb where
  orgs : List String
  connectors : List ConnectorRow := []
  capabilities : List (String × String) := []
  secrets : List ConnectorSecret := []

structure Connector where
  id : String
  orgId : String
  type : String
  name : String
  config : Json.Record
  status : ConnectorStatus
  lastVerifiedAt : Option String
  lastVerifyError : Option String
  isDefault : Bool
  createdBy : String
  createdAt : String
  updatedAt : String
  capabilities : List String
  secretMissing : Bool
  defaultFor : Option String

structure NewConnector where
  id : Option String := none
  orgId : String
  type : String
  name : String
  config : Option Json.Record := none
  status : Option ConnectorStatus := none
  lastVerifiedAt : Option String := none
  lastVerifyError : Option String := none
  isDefault : Option Bool := none
  createdBy : String

/-- `some none` writes a null. -/
structure ConnectorPatch where
  name : Option String := none
  config : Option Json.Record := none
  status : Option ConnectorStatus := none
  lastVerifiedAt : Option (Option String) := none
  lastVerifyError : Option (Option String) := none
  isDefault : Option Bool := none

structure ListConnectorsOptions where
  orgId : String
  category : Option String := none
  capability : Option String := none
  status : Option ConnectorStatus := none

namespace ConnectorDb

variable (db : ConnectorDb)

def rowToConnector (row : ConnectorRow) : Connector where
  id := row.id
  orgId := row.orgId
  type := row.type
  name := row.name
  config := row.config
  status := row.status
  lastVerifiedAt := row.lastVerifiedAt
  lastVerifyError := row.lastVerifyError
  isDefault := row.isDefault
  createdBy := row.createdBy
  createdAt := row.createdAt
  updatedAt := row.updatedAt
  capabilities := (db.capabilities.filter (·.1 = row.id)).map (·.2)
  secretMissing := !db.secrets.any (·.connectorId = row.id)
  defaultFor := if row.isDefault then some row.type else none

/-- `WHERE id = … AND org_id = …`. -/
def find (id orgId : String) : Option ConnectorRow :=
  db.connectors.find? fun r => r.id = id ∧ r.orgId = orgId

def get (id orgId : String) : Option Connector := (db.find id orgId).map db.rowToConnector

def list (opts : ListConnectorsOptions) : List Connector :=
  let rows := db.connectors.filter fun r =>
    r.orgId = opts.orgId ∧ opts.status.all (· = r.status) ∧
      opts.capability.all fun c => c = "" ∨ (r.id, c) ∈ db.capabilities
  ((rows.mergeSort fun r r' => decide (r.name ≤ r'.name)).map db.rowToConnector).filter
    fun c => typeMatchesCategory c.type opts.category

def clashes (r r' : ConnectorRow) : Bool :=
  r.orgId = r'.orgId ∧ r.type = r'.type ∧
    (r.name = r'.name ∨ r.isDefault = true ∧ r'.isDefault = true)

def unsetDefaults (orgId type now : String) (keep : String → Bool) : ConnectorDb :=
  { db with connectors := db.connectors.map fun r =>
      if r.orgId = orgId ∧ r.type = type ∧ keep r.id = false ∧ r.isDefault = true then
        { r with isDefault := false, updatedAt := now }
      else r }

/-- `INSERT` of a connector with its capabilities. -/
def insert (row : ConnectorRow) (capabilities : List String) : Except String ConnectorDb :=
  if db.connectors.any (fun r => r.id = row.id ∨ clashes r row) ∨
      capabilities.any (fun c => (row.id, c) ∈ db.capabilities) then
    .error "UNIQUE constraint failed"
  else if row.orgId ∉ db.orgs then .error "FOREIGN KEY constraint failed"
  else
    .ok { db with connectors := db.connectors ++ [row]
                  capabilities := db.capabilities ++ capabilities.map (row.id, ·) }

/-- `UPDATE … WHERE id = … AND org_id = …`. -/
def overwrite (id orgId : String) (set : ConnectorRow → ConnectorRow) :
    Except String ConnectorDb :=
  match db.find id orgId with
  | none => .ok db
  | some row =>
    if db.connectors.any (fun r => r.id ≠ id ∧ clashes r (set row)) then
      .error "UNIQUE constraint failed"
    else
      .ok { db with connectors := db.connectors.map fun r =>
              if r.id = id ∧ r.orgId = orgId then set r else r }

/-- `DELETE`, with what hangs on the row. -/
def remove (id orgId : String) : ConnectorDb :=
  if (db.find id orgId).isSome then
    { db with connectors := db.connectors.filter fun r => !decide (r.id = id ∧ r.orgId = orgId)
              capabilities := db.capabilities.filter (·.1 ≠ id)
              secrets := db.secrets.filter (·.connectorId ≠ id) }
  else db

end ConnectorDb

/-! ## Calls -/

def withTransaction (tx : ConnectorDb → Except String ConnectorDb) : Prog ConnectorDb Unit :=
  Prog.attempt fun db =>
    match tx db with
    | .ok db' => (.ok (), db')
    | .error e => (.error e, db)

namespace ConnectorRepository

/-- `uid` is drawn, `now` is read from the clock. -/
def create (uid now : String) (input : NewConnector) : Prog ConnectorDb Connector :=
  let id := input.id.getD (input.type ++ "-" ++ uid)
  let isDefault := input.isDefault.getD false
  match connectorTemplate input.type with
  | none => throw "Cannot read properties of undefined (reading 'capabilities')"
  | some template => do
      withTransaction fun db =>
        let db := if isDefault then
          db.unsetDefaults input.orgId input.type now fun _ => false else db
        db.insert
          { id := id
            orgId := input.orgId
            type := input.type
            name := input.name
            config := input.config.getD []
            status := input.status.getD .draft
            lastVerifiedAt := input.lastVerifiedAt
            lastVerifyError := input.lastVerifyError
            isDefault := isDefault
            createdBy := input.createdBy
            createdAt := now
            updatedAt := now } template.2
      match ← Prog.read (·.get id input.orgId) with
      | none => throw ("[ConnectorRepository] create: row " ++ id ++ " not found after insert")
      | some saved => return saved

def merged (existing : Connector) (patch : ConnectorPatch) (now : String) (row : ConnectorRow) :
    ConnectorRow :=
  { row with
    name := patch.name.getD existing.name
    config := patch.config.getD existing.config
    status := patch.status.getD existing.status
    lastVerifiedAt := patch.lastVerifiedAt.getD existing.lastVerifiedAt
    lastVerifyError := patch.lastVerifyError.getD existing.lastVerifyError
    isDefault := patch.isDefault.getD existing.isDefault
    updatedAt := now }

def save (now id : String) (existing : Connector) (patch : ConnectorPatch) (orgId : String)
    (db : ConnectorDb) : Except String ConnectorDb :=
  -- the row goes by what it is now, this by what was read
  let db := if patch.isDefault.getD existing.isDefault then
    db.unsetDefaults orgId existing.type now (· = id) else db
  db.overwrite id orgId (merged existing patch now)

def updateRead (now id : String) (patch : ConnectorPatch) (orgId : String) (existing : Connector) :
    Prog ConnectorDb (Option Connector) := do
  withTransaction (save now id existing patch orgId)
  Prog.read (·.get id orgId)

def update (now id : String) (patch : ConnectorPatch) (orgId : String) :
    Prog ConnectorDb (Option Connector) := do
  match ← Prog.read (·.get id orgId) with
  | none => return none
  | some existing => updateRead now id patch orgId existing

def delete (id orgId : String) : Prog ConnectorDb Bool := do
  match ← Prog.read (·.get id orgId) with
  | none => return false
  | some _ => do
      Prog.write (·.remove id orgId)
      return true

end ConnectorRepository

end OpenObs.Connectors
