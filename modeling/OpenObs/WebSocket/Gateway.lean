import OpenObs.Foundation.Machine
import OpenObs.Rules.Routes

/-!
# The WebSocket gateway

`websocket/gateway.ts`: four namespaces whose sockets join rooms by name, and a bridge that sends
each bus event to the room its payload names. A join is checked once, by the ids of its message;
an event is not checked at all.
-/

namespace OpenObs.WebSocket

open OpenObs.Foundation

/-! ## Resources -/

inductive Resource where
  | investigation (id : String)
  | incident (id : String)
  | approval (id : String)
  | feedItem (id : String)
  | finding (id : String)
deriving DecidableEq

inductive Space where
  | investigations | incidents | approvals | feed
deriving DecidableEq

namespace Resource

def space : Resource → Space
  | .investigation _ => .investigations
  | .incident _ => .incidents
  | .approval _ => .approvals
  | .feedItem _ | .finding _ => .feed

def room : Resource → String
  | .investigation id => "investigation:" ++ id
  | .incident id => "incident:" ++ id
  | .approval id => "approval:" ++ id
  | .feedItem id => "feed:" ++ id
  | .finding id => "finding:" ++ id

end Resource

def Space.resource : Space → String → Resource
  | .investigations => .investigation
  | .incidents => .incident
  | .approvals => .approval
  | .feed => .feedItem

/-- The columns that say whose a row is: `workspaceId`, or the id of its investigation. -/
structure Directory where
  investigationOrg : String → Option String
  incidentOrg : String → Option String
  approvalInvestigation : String → Option String
  itemInvestigation : String → Option String
  findingInvestigation : String → Option String

structure Readings where
  finds : Resource → Except String Bool
  permits : Rbac.Identity → Rbac.Evaluator → Except String Bool

def investigationsRead : String := "investigations:read"

def approvalsRead : String := "approvals:read"

/-! ## Checks -/

/-- The gateway: whether `authorization` is wired, the rows, and the text of a value in a
template. -/
structure Gateway where
  authorization : Bool
  dir : Directory
  interpolate : Json → String

variable (gw : Gateway) (identity : Rbac.Identity)

/-- `(await store.findById(id))?.column`. -/
def columnOf (x : Resource) (column : Option String) : Prog Readings (Option String) :=
  Prog.attempt fun r => ((r.finds x).map fun found => if found then column else none, r)

def evaluate (e : Rbac.Evaluator) : Prog Readings Bool :=
  Prog.attempt fun r => (r.permits identity e, r)

/-- `!column`. -/
def isMissing : Option String → Bool
  | none => true
  | some s => s = ""

def authorizeRow (x : Resource) (workspaceId : Option String) (e : Rbac.Evaluator) :
    Prog Readings Bool := do
  if gw.authorization then
    let workspaceId ← columnOf x workspaceId
    if isMissing workspaceId ∨ workspaceId ≠ some identity.orgId then return false
    else evaluate identity e
  else return false

def readsInvestigation (id : String) : Rbac.Evaluator :=
  .action investigationsRead ["investigations:uid:" ++ id]

def readsInvestigations : Rbac.Evaluator := .action investigationsRead ["investigations:*"]

def readsApproval (id : String) : Rbac.Evaluator := .action approvalsRead ["approvals:uid:" ++ id]

def authorizeInvestigation (investigationId : String) : Prog Readings Bool :=
  authorizeRow gw identity (.investigation investigationId)
    (gw.dir.investigationOrg investigationId) (readsInvestigation investigationId)

def authorizeIncident (incidentId : String) : Prog Readings Bool :=
  authorizeRow gw identity (.incident incidentId) (gw.dir.incidentOrg incidentId)
    readsInvestigations

def authorizeApproval (approvalId : String) : Prog Readings Bool := do
  if gw.authorization then
    match ← columnOf (.approval approvalId) (gw.dir.approvalInvestigation approvalId) with
    | none => return false
    | some investigationId =>
      if investigationId = "" then return false
      else if ← evaluate identity (readsApproval approvalId) then
        authorizeInvestigation gw identity investigationId
      else return false
  else return false

def authorizeFeedItem (itemId : String) : Prog Readings Bool := do
  if gw.authorization then
    match ← columnOf (.feedItem itemId) (gw.dir.itemInvestigation itemId) with
    | none => return false
    | some investigationId =>
      if investigationId = "" then return false
      else authorizeInvestigation gw identity investigationId
  else return false

def authorizeFinding (investigationId : String) : Prog Readings Bool :=
  if investigationId = "" then pure false else authorizeInvestigation gw identity investigationId

def authorizeJoin : Space → String → Prog Readings Bool
  | .investigations => authorizeInvestigation gw identity
  | .incidents => authorizeIncident gw identity
  | .approvals => authorizeApproval gw identity
  | .feed => authorizeFeedItem gw identity

/-! ## Sockets -/

structure Membership where
  room : String
  seen : List Readings

structure Client where
  space : Space
  identity : Option Rbac.Identity
  connected : Bool := true
  rooms : List Membership := []

structure Joining where
  socket : ℕ
  room : String
  seen : List Readings
  check : Prog Readings Bool

inductive EventType where
  | investigationCreated | investigationUpdated | investigationCompleted | investigationFailed
  | incidentCreated | incidentUpdated | incidentResolved
  | actionRequested | actionApproved | actionRejected | actionExecuted | actionFailed
  | findingCreated | findingUpdated | feedItemCreated | feedItemRead
deriving DecidableEq

structure EventEnvelope where
  type : String
  payload : Json.Record

inductive Sent where
  | joinOk (socket : ℕ) (room : String)
  | joinError (socket : ℕ) (room code message : String)
  | event (socket : ℕ) (event : EventEnvelope)

inductive ClientMessage where
  | join (payload : Option Json)
  | joinFinding (payload : Option Json)
  | leave (payload : Option Json)
  | leaveFinding (payload : Option Json)

structure GatewayWorld where
  readings : Readings
  sockets : List Client := []
  joins : List Joining := []
  sent : List Sent := []

inductive GatewayLabel : Type where
  | connect (space : Space) (identity : Option Rbac.Identity)
  | disconnect (i : ℕ)
  | message (i : ℕ) (message : ClientMessage)
  | advance (j : ℕ)
  | publish (topic : EventType) (event : EventEnvelope)
  | change (readings : Readings)

/-! ## Messages -/

/-- `typeof v === 'string' ? v.trim() : ''`. -/
def idOf : Option Json → String := Rules.trimmed

/-- `payload?.[name]`. -/
def optionalField (payload : Option Json) (name : String) : Option Json :=
  match payload with
  | some (.obj fields) => Json.field fields name
  | _ => none

def textOf : Option Json → String
  | none => "undefined"
  | some (.str s) => s
  | some v => gw.interpolate v

namespace GatewayWorld

variable (w : GatewayWorld)

def emitJoinDenied (i : ℕ) (room : String) : GatewayWorld :=
  { w with sent := w.sent ++ [.joinError i room "FORBIDDEN" "Not allowed to join room"] }

def joinIfAuthorized (i : ℕ) (client : Client) (room : String)
    (isAllowed : Rbac.Identity → Prog Readings Bool) : GatewayWorld :=
  match client.identity with
  | none => w.emitJoinDenied i room
  | some identity =>
    { w with joins := w.joins ++ [{ socket := i, room, seen := [], check := isAllowed identity }] }

def setRooms (i : ℕ) (client : Client) (rooms : List Membership) : GatewayWorld :=
  { w with sockets := w.sockets.set i { client with rooms } }

def leave (i : ℕ) (client : Client) (room : String) : GatewayWorld :=
  w.setRooms i client (client.rooms.filter (·.room ≠ room))

def onMessage (i : ℕ) (client : Client) : ClientMessage → GatewayWorld
  | .join payload =>
    let id := idOf payload
    if id = "" then w.emitJoinDenied i (client.space.resource "").room
    else w.joinIfAuthorized i client (client.space.resource id).room fun identity =>
      authorizeJoin gw identity client.space id
  | .joinFinding payload =>
    if client.space = .feed then
      let findingId := idOf (optionalField payload "findingId")
      let investigationId := idOf (optionalField payload "investigationId")
      if findingId = "" ∨ investigationId = "" then w.emitJoinDenied i (Resource.finding "").room
      -- the room is the finding's, the check the investigation's
      else w.joinIfAuthorized i client (Resource.finding findingId).room fun identity =>
        authorizeFinding gw identity investigationId
    else w
  | .leave payload => w.leave i client (client.space.resource (textOf gw payload)).room
  | .leaveFinding payload =>
    if client.space = .feed then w.leave i client (Resource.finding (textOf gw payload)).room
    else w

/-- `socket.join(room)`, and the reply. -/
def enter (p : Joining) (client : Client) : GatewayWorld :=
  { w.setRooms p.socket client (client.rooms ++ [⟨p.room, p.seen⟩]) with
    sent := w.sent ++ [.joinOk p.socket p.room] }

def advanceJoin (j : ℕ) (p : Joining) : GatewayWorld :=
  let w' := { w with joins := w.joins.eraseIdx j }
  match p.check with
  | .sect _ k =>
    { w with
      joins := w.joins.set j { p with seen := p.seen ++ [w.readings], check := k w.readings } }
  | .ret true =>
    -- a socket that has disconnected is put into the room all the same
    match w.sockets[p.socket]? with
    | some client => w'.enter p client
    | none => w'
  | .ret false => w'.emitJoinDenied p.socket p.room
  | .fail _ => w'.emitJoinDenied p.socket p.room

end GatewayWorld

/-! ## Events -/

namespace EventType

def space : EventType → Space
  | .investigationCreated | .investigationUpdated | .investigationCompleted
  | .investigationFailed => .investigations
  | .incidentCreated | .incidentUpdated | .incidentResolved => .incidents
  | .actionRequested | .actionApproved | .actionRejected | .actionExecuted | .actionFailed =>
    .approvals
  | .findingCreated | .findingUpdated | .feedItemCreated | .feedItemRead => .feed

end EventType

def named (event : EventEnvelope) (name : String) : Option String :=
  if Rules.truthyJson (Json.field event.payload name) then
    some (textOf gw (Json.field event.payload name))
  else none

def target (topic : EventType) (event : EventEnvelope) : Option Resource :=
  match topic.space with
  | .investigations => (named gw event "investigationId").map .investigation
  | .incidents => (named gw event "incidentId").map .incident
  | .approvals => (named gw event "actionId").map .approval
  | .feed =>
    match named gw event "itemId" with
    | some itemId => some (.feedItem itemId)
    | none => (named gw event "findingId").map .finding

def recipients (w : GatewayWorld) (x : Resource) : List ℕ :=
  (List.range w.sockets.length).filter fun i => (w.sockets[i]?).any fun client =>
    client.connected && decide (client.space = x.space) && client.rooms.any (·.room = x.room)

def GatewayWorld.bridge (w : GatewayWorld) (topic : EventType) (event : EventEnvelope) :
    GatewayWorld :=
  match target gw topic event with
  | some x => { w with sent := w.sent ++ (recipients w x).map (.event · event) }
  | none => w

def GatewayWorld.next (w : GatewayWorld) : GatewayLabel → Option GatewayWorld
  | .connect space identity => some { w with sockets := w.sockets ++ [{ space, identity }] }
  | .disconnect i => (w.sockets[i]?).map fun client =>
    { w with sockets := w.sockets.set i { client with connected := false, rooms := [] } }
  | .message i message =>
    match w.sockets[i]? with
    | some client => if client.connected then some (w.onMessage gw i client message) else none
    | none => none
  | .advance j => (w.joins[j]?).map fun p => w.advanceJoin j p
  | .publish topic event => some (w.bridge gw topic event)
  | .change readings => some { w with readings }

end OpenObs.WebSocket
