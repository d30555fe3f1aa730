import OpenObs.DataLayer.TopologyLaw

/-!
# Walking a topology graph

In a sound graph the ids of the index all have their edges, so a traversal never throws. The
transitive ones find the nodes that can be reached by edges of the allowed types, and a graph that
is written out and read again is the same graph.
-/

namespace OpenObs.DataLayer

open OpenObs.Foundation

namespace TopologyStore

def Direction.near : Direction → TopologyEdge → String
  | .downstream => (·.sourceId)
  | .upstream => (·.targetId)

def Direction.far : Direction → TopologyEdge → String
  | .downstream => (·.targetId)
  | .upstream => (·.sourceId)

def Allowed (edgeTypes : Option (List EdgeType)) (edge : TopologyEdge) : Prop :=
  ∀ types, edgeTypes = some types → edge.type ∈ types

def Step (direction : Direction) (edgeTypes : Option (List EdgeType)) (g : TopologyGraph)
    (a b : String) : Prop :=
  ∃ id edge, g.edges.get id = some edge ∧ Allowed edgeTypes edge ∧
    direction.near edge = a ∧ direction.far edge = b

def direct : Direction → String → Option (List EdgeType) → TopologyGraph →
    Except String (List DependencyInfo)
  | .downstream => getDownstream
  | .upstream => getUpstream

/-! ## One node -/

section Direct

variable {g : TopologyGraph} {direction : Direction} {edgeTypes : Option (List EdgeType)}
  {far : TopologyEdge → String} {start : String}

theorem allowed_iff {edge : TopologyEdge} :
    Allowed edgeTypes edge ↔ edgeTypes.any (!·.contains edge.type) = false := by
  unfold Allowed
  cases edgeTypes with
  | none => simp
  | some types => simp

theorem dependencies_ok (ids : List String) (hids : ∀ id ∈ ids, ∃ edge, g.edges.get id = some edge) :
    ∃ infos, dependencies far edgeTypes g ids = .ok infos ∧
      ∀ info, info ∈ infos ↔ ∃ id ∈ ids, g.edges.get id = some info.edge ∧
        Allowed edgeTypes info.edge ∧ g.nodes.get (far info.edge) = some info.node := by
  induction ids with
  | nil =>
    refine ⟨[], rfl, fun info => ⟨fun h => (by cases h), ?_⟩⟩
    rintro ⟨id, hid, -⟩
    cases hid
  | cons id rest ih =>
    obtain ⟨infos, hinfos, hmem⟩ := ih fun k hk => hids k (List.mem_cons_of_mem _ hk)
    obtain ⟨edge, hedge⟩ := hids id List.mem_cons_self
    have hmore : ∀ info : DependencyInfo, (∃ k ∈ id :: rest, g.edges.get k = some info.edge ∧
        Allowed edgeTypes info.edge ∧ g.nodes.get (far info.edge) = some info.node) ↔
        (edge = info.edge ∧ Allowed edgeTypes info.edge ∧
          g.nodes.get (far info.edge) = some info.node) ∨ info ∈ infos := by
      intro info
      rw [List.exists_mem_cons_iff, hmem, hedge, Option.some_inj]
    have hstep : dependencies far edgeTypes g (id :: rest) =
        if edgeTypes.any (!·.contains edge.type) then .ok infos
        else (g.nodes.get (far edge)).elim (.ok infos) fun node => .ok (⟨node, edge⟩ :: infos) := by
      rw [dependencies, hedge]
      dsimp only
      rw [hinfos]
      cases g.nodes.get (far edge) <;> rfl
    rw [hstep]
    split
    · rename_i hskip
      refine ⟨infos, rfl, fun info => ?_⟩
      rw [hmore]
      refine ⟨Or.inr, fun h => h.resolve_left ?_⟩
      rintro ⟨rfl, hallowed, -⟩
      rw [allowed_iff, hskip] at hallowed
      cases hallowed
    · rename_i hkeep
      have hallowed : Allowed edgeTypes edge := allowed_iff.mpr ((Bool.not_eq_true _).mp hkeep)
      cases hnode : g.nodes.get (far edge) with
      | none =>
        refine ⟨infos, rfl, fun info => ?_⟩
        rw [hmore]
        refine ⟨Or.inr, fun h => h.resolve_left ?_⟩
        rintro ⟨rfl, -, hsome⟩
        rw [hnode] at hsome
        cases hsome
      | some node =>
        refine ⟨_, rfl, fun info => ?_⟩
        rw [hmore, List.mem_cons]
        refine or_congr_left ⟨?_, ?_⟩
        · rintro rfl
          exact ⟨rfl, hallowed, hnode⟩
        · rintro ⟨rfl, -, hsome⟩
          rw [hnode] at hsome
          cases hsome
          rfl

theorem Sound.direct (h : Sound g) (direction : Direction) (edgeTypes : Option (List EdgeType))
    (id : String) : ∃ infos, direct direction id edgeTypes g = .ok infos ∧
      ∀ info, info ∈ infos ↔ g.edges.get info.edge.id = some info.edge ∧
        Allowed edgeTypes info.edge ∧ direction.near info.edge = id ∧
        g.nodes.get (direction.far info.edge) = some info.node := by
  have hone : ∀ {index : EdgeIndex} {near : TopologyEdge → String},
      Indexed index near g.edges → ∃ infos,
        dependencies direction.far edgeTypes g (edgeIds index id) = .ok infos ∧
        ∀ info, info ∈ infos ↔ g.edges.get info.edge.id = some info.edge ∧
          Allowed edgeTypes info.edge ∧ near info.edge = id ∧
          g.nodes.get (direction.far info.edge) = some info.node := by
    intro index near hindex
    obtain ⟨infos, hok, hmem⟩ := @dependencies_ok g edgeTypes direction.far
      (edgeIds index id) fun k hk => by
        obtain ⟨edge, hedge, -⟩ := hindex.mem_iff.mp hk
        exact ⟨edge, hedge⟩
    refine ⟨infos, hok, fun info => (hmem info).trans ⟨?_, ?_⟩⟩
    · rintro ⟨k, hk, hget, hallowed, hnode⟩
      obtain ⟨edge, hedge, hnear⟩ := hindex.mem_iff.mp hk
      rw [hget] at hedge
      cases hedge
      have hid := h.edge k _ hget
      rw [hid]
      exact ⟨hget, hallowed, hnear, hnode⟩
    · rintro ⟨hget, hallowed, hnear, hnode⟩
      exact ⟨info.edge.id, hindex.mem_iff.mpr ⟨_, hget, hnear⟩, hget, hallowed, hnode⟩
  cases direction with
  | downstream => exact hone h.outgoing
  | upstream => exact hone h.incoming

theorem neighbors_eq {id : String} {infos : List DependencyInfo}
    (h : TopologyStore.direct direction id edgeTypes g = .ok infos) :
    neighbors direction edgeTypes g id = .ok (infos.map (·.node)) := by
  cases direction <;>
  · unfold neighbors
    dsimp only [TopologyStore.direct] at h ⊢
    rw [h]
    rfl

/-! ## All that can be reached -/

def Reaches (direction : Direction) (edgeTypes : Option (List EdgeType)) (g : TopologyGraph)
    (start : String) (result : List TopologyNode) : Prop :=
  (result.map (·.id)).Nodup ∧ ∀ node, node ∈ result ↔ g.nodes.get node.id = some node ∧
    node.id ≠ start ∧ Relation.ReflTransGen (Step direction edgeTypes g) start node.id

theorem Sound.neighbors (h : Sound g) (direction : Direction)
    (edgeTypes : Option (List EdgeType)) : ∃ next : String → List TopologyNode,
      (∀ k, neighbors direction edgeTypes g k = .ok (next k)) ∧
      ∀ k node, node ∈ next k ↔
        g.nodes.get node.id = some node ∧ Step direction edgeTypes g k node.id := by
  choose infos hinfos hmem using h.direct direction edgeTypes
  refine ⟨fun k => (infos k).map (·.node), fun k => neighbors_eq (hinfos k), fun k node => ?_⟩
  rw [List.mem_map]
  constructor
  · rintro ⟨info, hinfo, rfl⟩
    obtain ⟨hget, hallowed, hnear, hnode⟩ := (hmem k info).mp hinfo
    have hid := h.node _ _ hnode
    rw [hid]
    exact ⟨hnode, _, info.edge, hget, hallowed, hnear, rfl⟩
  · rintro ⟨hnode, id, edge, hget, hallowed, hnear, hfar⟩
    have hid := h.edge id edge hget
    subst hid
    exact ⟨⟨node, edge⟩, (hmem k _).mpr ⟨hget, hallowed, hnear, hfar ▸ hnode⟩, rfl⟩

theorem Sound.next_iff (h : Sound g) {next : String → List TopologyNode}
    (hnext : ∀ k node, node ∈ next k ↔
      g.nodes.get node.id = some node ∧ Step direction edgeTypes g k node.id) {a b : String} :
    Search.Next (·.id) next a b ↔ Step direction edgeTypes g a b := by
  constructor
  · rintro ⟨node, hnode, rfl⟩
    exact ((hnext a node).mp hnode).2
  · rintro ⟨id, edge, hget, hallowed, hnear, hfar⟩
    have hhas : g.nodes.has b = true := by
      obtain ⟨hsource, htarget⟩ := h.ends id edge hget
      cases direction with
      | downstream => exact hfar ▸ htarget
      | upstream => exact hfar ▸ hsource
    obtain ⟨node, hnode⟩ := Option.isSome_iff_exists.mp hhas
    have hid := h.node b node hnode
    subst hid
    exact ⟨node, (hnext a node).mpr ⟨hnode, id, edge, hget, hallowed, hnear, hfar⟩, rfl⟩

theorem Sound.bfs (h : Sound g) (direction : Direction) (edgeTypes : Option (List EdgeType))
    (start : String) : ∃ result, bfs start direction edgeTypes g = .ok result ∧
      Reaches direction edgeTypes g start result := by
  obtain ⟨next, hneighbors, hnext⟩ := h.neighbors direction edgeTypes
  have hreach : ∀ k, Relation.ReflTransGen (Search.Next (·.id) next) start k ↔
      Relation.ReflTransGen (Step direction edgeTypes g) start k :=
    fun k => ⟨Relation.ReflTransGen.mono (fun a b => (h.next_iff hnext).mp) _ _,
      Relation.ReflTransGen.mono (fun a b => (h.next_iff hnext).mpr) _ _⟩
  obtain ⟨result, hrun, hfound⟩ := Search.run_found (U := g.nodes.keys)
    hneighbors
    (fun k node hnode => OrderedMap.has_iff.mp <| by
      rw [OrderedMap.has, ((hnext k node).mp hnode).1]
      rfl)
    (g.nodes.entries.length + 2) (Search.ofStart start) (Search.explored_ofStart _ _ _) (by
      show 1 + (g.nodes.keys.length + 1) < g.nodes.entries.length + 2 + 1
      rw [OrderedMap.keys, List.length_map]
      omega)
  refine ⟨result, hrun, (List.nodup_cons.mp hfound.nodup).2, fun node => ⟨fun hnode => ?_, ?_⟩⟩
  · obtain ⟨k, hk, hn⟩ := hfound.sound node hnode
    obtain ⟨hget, hlast⟩ := (hnext k node).mp hn
    refine ⟨hget, ?_, ((hreach k).mp hk).tail hlast⟩
    rintro rfl
    exact (List.nodup_cons.mp hfound.nodup).1 (List.mem_map_of_mem hnode)
  · rintro ⟨hget, hne, hr⟩
    have hmem' := (hfound.complete node.id ((hreach _).mpr hr)).resolve_left hne
    obtain ⟨other, hother, hid⟩ := List.mem_map.mp hmem'
    obtain ⟨k, -, hn⟩ := hfound.sound other hother
    have hsame := ((hnext k other).mp hn).1
    rw [hid, hget] at hsame
    cases hsame
    exact hother

end Direct

/-! ## Written out and read again -/

section Json

variable {g : TopologyGraph}

theorem nodes_loadNodes (l : List (String × TopologyNode)) : ∀ g : TopologyGraph,
    (∀ e ∈ l, e.2.id = e.1) → ((g.nodes.entries ++ l).map Prod.fst).Nodup →
      (loadNodes (l.map Prod.snd) g).nodes.entries = g.nodes.entries ++ l := by
  induction l with
  | nil => exact fun g _ _ => (List.append_nil _).symm
  | cons e rest ih =>
    intro g hids hnodup
    have hid := hids e List.mem_cons_self
    have hnew : e.2.id ∉ g.nodes.keys := by
      rw [hid]
      intro hmem
      rw [List.map_append] at hnodup
      exact (List.nodup_append.mp hnodup).2.2 _ hmem _ List.mem_cons_self rfl
    have hset : (g.nodes.set e.2.id e.2).entries = g.nodes.entries ++ [e] := by
      rw [OrderedMap.entries_set_new hnew, hid]
    have hrest := ih { g with nodes := g.nodes.set e.2.id e.2 }
      (fun x hx => hids x (List.mem_cons_of_mem _ hx)) (by
        show (((g.nodes.set e.2.id e.2).entries ++ rest).map Prod.fst).Nodup
        rw [hset, List.append_assoc]
        exact hnodup)
    refine hrest.trans ?_
    show (g.nodes.set e.2.id e.2).entries ++ rest = _
    rw [hset, List.append_assoc]
    rfl

theorem edges_loadNodes (nodes : List TopologyNode) : ∀ g : TopologyGraph,
    (loadNodes nodes g).edges = g.edges := by
  induction nodes with
  | nil => exact fun _ => rfl
  | cons node rest ih => exact fun g => ih _

theorem loadEdges_ok (l : List (String × TopologyEdge)) : ∀ g : TopologyGraph, Sound g →
    (∀ e ∈ l, e.2.id = e.1 ∧ g.nodes.has e.2.sourceId = true ∧ g.nodes.has e.2.targetId = true) →
    ((g.edges.entries ++ l).map Prod.fst).Nodup →
      ∃ g', loadEdges (l.map Prod.snd) g = (.ok (), g') ∧ Sound g' ∧ g'.nodes = g.nodes ∧
        g'.edges.entries = g.edges.entries ++ l := by
  induction l with
  | nil => exact fun g h _ _ => ⟨g, rfl, h, rfl, (List.append_nil _).symm⟩
  | cons e rest ih =>
    intro g h hall hnodup
    obtain ⟨hid, hsource, htarget⟩ := hall e List.mem_cons_self
    have hnew : e.2.id ∉ g.edges.keys := by
      rw [hid]
      intro hmem
      rw [List.map_append] at hnodup
      exact (List.nodup_append.mp hnodup).2.2 _ hmem _ List.mem_cons_self rfl
    have hset : (storeEdge e.2 g).edges.entries = g.edges.entries ++ [e] := by
      show (g.edges.set e.2.id e.2).entries = _
      rw [OrderedMap.entries_set_new hnew, hid]
    have hinsert : insertEdge e.2 g = (.ok e.2, storeEdge e.2 g) := by
      rw [insertEdge, hsource, htarget]
      rfl
    have hone : Sound (storeEdge e.2 g) := h.storeEdge hsource htarget fun _ _ old hold => by
      rw [OrderedMap.get_eq_none_iff.mpr hnew] at hold
      cases hold
    obtain ⟨g', hload, hsound, hnodes, hedges⟩ := ih (storeEdge e.2 g) hone
      (fun x hx => hall x (List.mem_cons_of_mem _ hx)) (by
        rw [hset, List.append_assoc]
        exact hnodup)
    refine ⟨g', ?_, hsound, hnodes, ?_⟩
    · rw [List.map_cons, loadEdges, hinsert]
      exact hload
    · rw [hedges, hset, List.append_assoc]
      rfl

def SameGraph (g g' : TopologyGraph) : Prop :=
  g'.nodes.entries = g.nodes.entries ∧ g'.edges.entries = g.edges.entries ∧
    ∀ n, edgeIds g'.outEdges n = edgeIds g.outEdges n ∧ edgeIds g'.inEdges n = edgeIds g.inEdges n

theorem Sound.loadJSON_toJSON (h : Sound g) :
    ∃ g', loadJSON (toJSON g).1 (toJSON g).2 = (.ok (), g') ∧ SameGraph g g' := by
  have hnodes : (TopologyStore.loadNodes g.nodes.values {}).nodes.entries = g.nodes.entries :=
    nodes_loadNodes g.nodes.entries {}
      (fun e he => h.node e.1 e.2 (OrderedMap.get_eq_some_iff.mpr he)) g.nodes.keys_nodup
  have hedges := edges_loadNodes g.nodes.values {}
  have hhas : ∀ id, (TopologyStore.loadNodes g.nodes.values {}).nodes.has id = g.nodes.has id := by
    intro id
    rw [OrderedMap.has, OrderedMap.has, OrderedMap.get, OrderedMap.get, hnodes]
  obtain ⟨g', hload, hsound, hnodes', hedges'⟩ := loadEdges_ok g.edges.entries
    (TopologyStore.loadNodes g.nodes.values {}) (Sound.loadNodes _ _ sound_empty) (fun e he => by
      have hget := OrderedMap.get_eq_some_iff.mpr he
      rw [hhas, hhas]
      exact ⟨h.edge e.1 e.2 hget, h.ends e.1 e.2 hget⟩) (by
      rw [hedges]
      exact g.edges.keys_nodup)
  rw [hedges] at hedges'
  refine ⟨g', hload, hnodes' ▸ hnodes, hedges', fun n => ⟨?_, ?_⟩⟩
  · rw [hsound.outgoing n, h.outgoing n, hedges']
    rfl
  · rw [hsound.incoming n, h.incoming n, hedges']
    rfl

end Json

end TopologyStore

open TopologyStore

/-! ## The representation -/

structure TopologyGraph.Represented (g : TopologyGraph) : Prop where
  outgoing : ∀ id n, id ∈ edgeIds g.outEdges n ↔ ∃ edge, g.edges.get id = some edge ∧
    edge.sourceId = n
  incoming : ∀ id n, id ∈ edgeIds g.inEdges n ↔ ∃ edge, g.edges.get id = some edge ∧
    edge.targetId = n
  ends : ∀ id edge, g.edges.get id = some edge →
    g.nodes.has edge.sourceId = true ∧ g.nodes.has edge.targetId = true
  direct : ∀ direction n edgeTypes, ∃ infos, TopologyStore.direct direction n edgeTypes g = .ok infos ∧
    ∀ info, info ∈ infos ↔ g.edges.get info.edge.id = some info.edge ∧
      Allowed edgeTypes info.edge ∧ direction.near info.edge = n ∧
      g.nodes.get (direction.far info.edge) = some info.node
  downstream : ∀ n edgeTypes, ∃ result, getTransitiveDownstream n edgeTypes g = .ok result ∧
    Reaches .downstream edgeTypes g n result
  upstream : ∀ n edgeTypes, ∃ result, getTransitiveUpstream n edgeTypes g = .ok result ∧
    Reaches .upstream edgeTypes g n result
  restored : ∃ g', loadJSON (toJSON g).1 (toJSON g).2 = (.ok (), g') ∧ SameGraph g g'

/-- After a run whose added edges are kept apart the graph is represented. -/
theorem represented_of_proper (calls : List TopologyCall)
    (hproper : TopologyCall.ProperRun calls {}) :
    (TopologyCall.run calls {}).Represented := by
  have h := sound_empty.run calls _ hproper
  exact ⟨fun _ _ => h.outgoing.mem_iff, fun _ _ => h.incoming.mem_iff, h.ends,
    fun direction n edgeTypes => h.direct direction edgeTypes n,
    fun n edgeTypes => h.bfs .downstream edgeTypes n,
    fun n edgeTypes => h.bfs .upstream edgeTypes n, h.loadJSON_toJSON⟩

/-- A cycle of two nodes, of which one is removed. -/
theorem represented_cycle : (TopologyCall.run [
    .addNode { id := some "a", uuid := "u1", type := .service, name := "A" },
    .addNode { id := some "b", uuid := "u2", type := .host, name := "B" },
    .addEdge { id := some "e", uuid := "u3", type := .calls, sourceId := "a", targetId := "b" },
    .addEdge { uuid := "u4", type := .dependsOn, sourceId := "b", targetId := "a" },
    .addEdge { id := some "e", uuid := "u5", type := .ownedBy, sourceId := "a", targetId := "b" },
    .addEdge { uuid := "u6", type := .calls, sourceId := "b", targetId := "b" },
    .removeNode "a"] {}).Represented := by
  refine represented_of_proper _ ⟨trivial, trivial, ?_, ?_, ?_, ?_, trivial, trivial⟩
  · rintro - - old ⟨⟩
  · rintro - - old ⟨⟩
  · rintro - - old hold
    cases hold
    exact ⟨rfl, rfl⟩
  · rintro - - old ⟨⟩

/-- An id that is given to another pair of nodes stays in the list of the first; when the edge is
removed the traversal from there throws. -/
theorem reused_id_throws : ∃ calls : List TopologyCall,
    getDownstream "n1" none (TopologyCall.run calls {}) =
      .error "TypeError: Cannot read properties of undefined" ∧
    ¬ (TopologyCall.run calls {}).Represented := by
  have hthrows : getDownstream "n1" none (TopologyCall.run [
      .addNode { id := some "n1", uuid := "u1", type := .service, name := "N1" },
      .addNode { id := some "n2", uuid := "u2", type := .service, name := "N2" },
      .addNode { id := some "n3", uuid := "u3", type := .service, name := "N3" },
      .addEdge { id := some "e", uuid := "u4", type := .calls, sourceId := "n1", targetId := "n2" },
      .addEdge { id := some "e", uuid := "u5", type := .calls, sourceId := "n3", targetId := "n2" },
      .removeEdge "e"] {}) = .error "TypeError: Cannot read properties of undefined" := by
    decide +kernel
  refine ⟨_, hthrows, fun h => ?_⟩
  obtain ⟨infos, hinfos, -⟩ := h.direct .downstream "n1" none
  rw [show direct .downstream "n1" none = getDownstream "n1" none from rfl, hthrows] at hinfos
  cases hinfos

end OpenObs.DataLayer
