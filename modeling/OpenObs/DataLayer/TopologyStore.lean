import OpenObs.Foundation.OrderedMap
import OpenObs.Foundation.Search

/-!
# The topology store

`topology/TopologyStore.ts`: nodes and edges by id, and for every node the set of the ids
of its outgoing and of its incoming edges.
-/

namespace OpenObs.DataLayer

open OpenObs.Foundation

/-! ## The graph -/

inductive NodeType : Type where
  | service
  | endpoint
  | pod
  | host
  | deployment
  | job
deriving DecidableEq

inductive EdgeType : Type where
  | calls
  | dependsOn
  | deployedBy
  | ownedBy
deriving DecidableEq

structure Service where
  id : String
  type : NodeType
  name : String
  metadata : List (String × String) := []
  tags : List String := []
deriving DecidableEq

structure TopologyNode where
  id : String
  type : NodeType
  name : String
  metadata : List (String × String) := []
  tags : List String := []
  service : Option Service := none
deriving DecidableEq

structure TopologyEdge where
  id : String
  type : EdgeType
  sourceId : String
  targetId : String
  metadata : Option (List (String × String)) := none
  manual : Option Bool := none
deriving DecidableEq

structure TopologyGraph where
  nodes : OrderedMap String TopologyNode := {}
  edges : OrderedMap String TopologyEdge := {}
  outEdges : OrderedMap String (OrderedMap String Unit) := {}
  inEdges : OrderedMap String (OrderedMap String Unit) := {}

structure DependencyInfo where
  node : TopologyNode
  edge : TopologyEdge
deriving DecidableEq

namespace TopologyStore

/-- `map.get(id) ?? []`. -/
def edgeIds (index : OrderedMap String (OrderedMap String Unit)) (id : String) : List String :=
  ((index.get id).map (·.keys)).getD []

def addTo (index : OrderedMap String (OrderedMap String Unit)) (id edgeId : String) :
    OrderedMap String (OrderedMap String Unit) :=
  index.set id (((index.get id).getD {}).set edgeId ())

/-- `index.get(id)?.delete(edgeId)`. -/
def deleteFrom (index : OrderedMap String (OrderedMap String Unit)) (id edgeId : String) :
    OrderedMap String (OrderedMap String Unit) :=
  match index.get id with
  | none => index
  | some ids => index.set id (ids.delete edgeId)

/-! ## Nodes -/

structure NodeParams where
  id : Option String := none
  uuid : String
  type : NodeType
  name : String
  metadata : List (String × String) := []
  tags : List String := []
  service : Option Service := none

def NodeParams.node (params : NodeParams) : TopologyNode :=
  { id := params.id.getD params.uuid, type := params.type, name := params.name
    metadata := params.metadata, tags := params.tags, service := params.service }

def addNode (params : NodeParams) (g : TopologyGraph) : TopologyNode × TopologyGraph :=
  (params.node, { g with nodes := g.nodes.set params.node.id params.node })

def findNodeByServiceId (serviceId : String) (g : TopologyGraph) : Option TopologyNode :=
  g.nodes.values.find? fun node => node.service.map (·.id) = some serviceId

def addServiceNode (service : Service) (g : TopologyGraph) : TopologyNode × TopologyGraph :=
  match findNodeByServiceId service.id g with
  | some existing => (existing, g)
  | none => addNode
      { id := some service.id, uuid := "", type := service.type, name := service.name
        metadata := service.metadata, tags := service.tags, service := some service } g

/-! ## Edges -/

structure EdgeParams where
  id : Option String := none
  uuid : String
  type : EdgeType
  sourceId : String
  targetId : String
  metadata : Option (List (String × String)) := none
  manual : Option Bool := none

def EdgeParams.edge (params : EdgeParams) : TopologyEdge :=
  { id := params.id.getD params.uuid, type := params.type, sourceId := params.sourceId
    targetId := params.targetId, metadata := params.metadata, manual := params.manual }

def storeEdge (edge : TopologyEdge) (g : TopologyGraph) : TopologyGraph :=
  { g with
    edges := g.edges.set edge.id edge
    outEdges := addTo g.outEdges edge.sourceId edge.id
    inEdges := addTo g.inEdges edge.targetId edge.id }

def insertEdge (edge : TopologyEdge) (g : TopologyGraph) : Except String TopologyEdge × TopologyGraph :=
  if g.nodes.has edge.sourceId = false then
    (.error ("Source node not found: " ++ edge.sourceId), g)
  else if g.nodes.has edge.targetId = false then
    (.error ("Target node not found: " ++ edge.targetId), g)
  else (.ok edge, storeEdge edge g)

def addEdge (params : EdgeParams) : TopologyGraph → Except String TopologyEdge × TopologyGraph :=
  insertEdge params.edge

def removeEdge (id : String) (g : TopologyGraph) : Bool × TopologyGraph :=
  match g.edges.get id with
  | none => (false, g)
  | some edge => (true, { g with
      outEdges := deleteFrom g.outEdges edge.sourceId id
      inEdges := deleteFrom g.inEdges edge.targetId id
      edges := g.edges.delete id })

def removeEdges (ids : List String) (g : TopologyGraph) : TopologyGraph :=
  ids.foldl (fun g id => (removeEdge id g).2) g

def removeNode (id : String) (g : TopologyGraph) : Bool × TopologyGraph :=
  if g.nodes.has id = false then (false, g)
  else
    let g := removeEdges (edgeIds g.outEdges id ++ edgeIds g.inEdges id) g
    (true, { g with
      nodes := g.nodes.delete id
      outEdges := g.outEdges.delete id
      inEdges := g.inEdges.delete id })

/-! ## Traversal -/

/-- The edges of an index entry with the nodes at their other end; an id without an edge throws. -/
def dependencies (far : TopologyEdge → String) (edgeTypes : Option (List EdgeType))
    (g : TopologyGraph) : List String → Except String (List DependencyInfo)
  | [] => pure []
  | edgeId :: rest => do
      match g.edges.get edgeId with
      | none => throw "TypeError: Cannot read properties of undefined"
      | some edge => do
          let results ← dependencies far edgeTypes g rest
          if edgeTypes.any (!·.contains edge.type) then pure results
          else
            match g.nodes.get (far edge) with
            | none => pure results
            | some node => pure (⟨node, edge⟩ :: results)

def getDownstream (nodeId : String) (edgeTypes : Option (List EdgeType)) (g : TopologyGraph) :
    Except String (List DependencyInfo) :=
  dependencies (·.targetId) edgeTypes g (edgeIds g.outEdges nodeId)

def getUpstream (nodeId : String) (edgeTypes : Option (List EdgeType)) (g : TopologyGraph) :
    Except String (List DependencyInfo) :=
  dependencies (·.sourceId) edgeTypes g (edgeIds g.inEdges nodeId)

inductive Direction : Type where
  | downstream
  | upstream

def neighbors (direction : Direction) (edgeTypes : Option (List EdgeType)) (g : TopologyGraph)
    (id : String) : Except String (List TopologyNode) := do
  let infos ← match direction with
    | .downstream => getDownstream id edgeTypes g
    | .upstream => getUpstream id edgeTypes g
  pure (infos.map (·.node))

def bfs (startId : String) (direction : Direction) (edgeTypes : Option (List EdgeType))
    (g : TopologyGraph) : Except String (List TopologyNode) :=
  Search.run (·.id) (neighbors direction edgeTypes g) (g.nodes.entries.length + 2) (.ofStart startId)

def getTransitiveDownstream (nodeId : String) (edgeTypes : Option (List EdgeType)) :
    TopologyGraph → Except String (List TopologyNode) :=
  bfs nodeId .downstream edgeTypes

def getTransitiveUpstream (nodeId : String) (edgeTypes : Option (List EdgeType)) :
    TopologyGraph → Except String (List TopologyNode) :=
  bfs nodeId .upstream edgeTypes

/-! ## Serialization -/

def toJSON (g : TopologyGraph) : List TopologyNode × List TopologyEdge :=
  (g.nodes.values, g.edges.values)

def loadNodes (nodes : List TopologyNode) (g : TopologyGraph) : TopologyGraph :=
  nodes.foldl (fun g node => { g with nodes := g.nodes.set node.id node }) g

def loadEdges : List TopologyEdge → TopologyGraph → Except String Unit × TopologyGraph
  | [], g => (.ok (), g)
  | edge :: rest, g =>
    match insertEdge edge g with
    | (.error e, g) => (.error e, g)
    | (.ok _, g) => loadEdges rest g

def loadJSON (nodes : List TopologyNode) (edges : List TopologyEdge) :
    Except String Unit × TopologyGraph :=
  loadEdges edges (loadNodes nodes {})

/-! ## Ids in use -/

def Kept (edge : TopologyEdge) (g : TopologyGraph) : Prop :=
  g.nodes.has edge.sourceId = true → g.nodes.has edge.targetId = true →
    ∀ old, g.edges.get edge.id = some old →
      old.sourceId = edge.sourceId ∧ old.targetId = edge.targetId

def AllKept : List TopologyEdge → TopologyGraph → Prop
  | [], _ => True
  | edge :: rest, g => Kept edge g ∧
      ((insertEdge edge g).1.isOk → AllKept rest (insertEdge edge g).2)

end TopologyStore

inductive TopologyCall : Type where
  | addNode (params : TopologyStore.NodeParams)
  | addServiceNode (service : Service)
  | addEdge (params : TopologyStore.EdgeParams)
  | removeEdge (id : String)
  | removeNode (id : String)
  | loadJSON (nodes : List TopologyNode) (edges : List TopologyEdge)
  | clear

open TopologyStore in
def TopologyCall.apply : TopologyCall → TopologyGraph → TopologyGraph
  | .addNode params, g => (TopologyStore.addNode params g).2
  | .addServiceNode service, g => (TopologyStore.addServiceNode service g).2
  | .addEdge params, g => (TopologyStore.addEdge params g).2
  | .removeEdge id, g => (TopologyStore.removeEdge id g).2
  | .removeNode id, g => (TopologyStore.removeNode id g).2
  | .loadJSON nodes edges, _ => (TopologyStore.loadJSON nodes edges).2
  | .clear, _ => {}

open TopologyStore in
def TopologyCall.Proper : TopologyCall → TopologyGraph → Prop
  | .addEdge params, g => Kept params.edge g
  | .loadJSON nodes edges, _ => AllKept edges (loadNodes nodes {})
  | _, _ => True

end OpenObs.DataLayer
