import OpenObs.DataLayer.TopologyStore

/-!
# What a topology graph represents

The index of a graph lists, for every node, the edges that leave or reach it, in the order
of the edges. Every call keeps this where an edge that is added takes an id that is not in
use, or is in use for the same two nodes.
-/

namespace OpenObs.DataLayer

open OpenObs.Foundation

namespace TopologyStore

abbrev EdgeIndex := OrderedMap String (OrderedMap String Unit)

def Indexed (index : EdgeIndex) (near : TopologyEdge → String)
    (edges : OrderedMap String TopologyEdge) : Prop :=
  ∀ n, edgeIds index n = (edges.entries.filter fun e => near e.2 = n).map Prod.fst

/-! ## One end of the edges -/

section Index

variable {index : EdgeIndex} {near : TopologyEdge → String}
  {edges : OrderedMap String TopologyEdge} {a id n : String} {edge : TopologyEdge}

theorem edgeIds_set {ids : OrderedMap String Unit} :
    edgeIds (index.set a ids) n = if n = a then ids.keys else edgeIds index n := by
  unfold edgeIds
  rw [OrderedMap.get_set]
  split <;> rfl

theorem edgeIds_addTo : edgeIds (addTo index a id) n =
    if n = a then (if id ∈ edgeIds index a then edgeIds index a else edgeIds index a ++ [id])
    else edgeIds index n := by
  have hkeys : ((index.get a).getD {}).keys = edgeIds index a := by
    unfold edgeIds
    cases index.get a <;> rfl
  rw [addTo, edgeIds_set, OrderedMap.keys_set, hkeys]

theorem edgeIds_deleteFrom : edgeIds (deleteFrom index a id) n =
    if n = a then (edgeIds index a).filter (· ≠ id) else edgeIds index n := by
  unfold deleteFrom
  split
  · rename_i hnone
    split
    · rename_i heq
      subst heq
      have hnil : edgeIds index n = [] := by
        unfold edgeIds
        rw [hnone]
        rfl
      rw [hnil]
      rfl
    · rfl
  · rename_i ids hsome
    have hkeys : ids.keys = edgeIds index a := by
      unfold edgeIds
      rw [hsome]
      rfl
    rw [edgeIds_set, OrderedMap.keys_delete, hkeys]

theorem edgeIds_delete : edgeIds (index.delete a) n = if n = a then [] else edgeIds index n := by
  unfold edgeIds
  rw [OrderedMap.get_delete]
  split <;> rfl

theorem Indexed.mem_iff (h : Indexed index near edges) :
    id ∈ edgeIds index n ↔ ∃ edge, edges.get id = some edge ∧ near edge = n := by
  rw [h n, List.mem_map]
  constructor
  · rintro ⟨⟨k, edge⟩, he, rfl⟩
    obtain ⟨hmem, hnear⟩ := List.mem_filter.mp he
    exact ⟨edge, OrderedMap.get_eq_some_iff.mpr hmem, of_decide_eq_true hnear⟩
  · rintro ⟨edge, hget, hnear⟩
    exact ⟨(id, edge), List.mem_filter.mpr ⟨OrderedMap.get_eq_some_iff.mp hget,
      decide_eq_true hnear⟩, rfl⟩

theorem indexed_empty : Indexed {} near {} := fun _ => rfl

theorem Indexed.add_new (h : Indexed index near edges) (hnew : id ∉ edges.keys) :
    Indexed (addTo index (near edge) id) near (edges.set id edge) := by
  intro n
  have hnot : id ∉ edgeIds index (near edge) := by
    intro hmem
    obtain ⟨old, hold, -⟩ := h.mem_iff.mp hmem
    exact hnew (List.mem_map_of_mem (OrderedMap.get_eq_some_iff.mp hold))
  rw [edgeIds_addTo, if_neg hnot, OrderedMap.entries_set_new hnew, List.filter_append,
    List.map_append, ← h n]
  split
  · rename_i heq
    subst heq
    simp
  · rename_i hne
    simp [Ne.symm hne]

theorem Indexed.add_old (h : Indexed index near edges) {old : TopologyEdge}
    (hold : edges.get id = some old) (hsame : near old = near edge) :
    Indexed (addTo index (near edge) id) near (edges.set id edge) := by
  intro n
  have hentry := OrderedMap.get_eq_some_iff.mp hold
  have hmem : id ∈ edgeIds index (near edge) := h.mem_iff.mpr ⟨old, hold, hsame⟩
  have hids : edgeIds (addTo index (near edge) id) n = edgeIds index n := by
    rw [edgeIds_addTo, if_pos hmem]
    split
    · rename_i heq
      rw [heq]
    · rfl
  have hends : ∀ e ∈ edges.entries, near (if e.1 = id then (id, edge) else e).2 = near e.2 := by
    intro e he
    split
    · rename_i hid
      have hkey : edges.get id = some e.2 := OrderedMap.get_eq_some_iff.mpr (hid ▸ he)
      rw [hold] at hkey
      cases hkey
      exact hsame.symm
    · rfl
  have hkeys : ∀ e : String × TopologyEdge, (if e.1 = id then (id, edge) else e).1 = e.1 := by
    intro e
    split
    · rename_i hid
      exact hid.symm
    · rfl
  rw [hids, h n, OrderedMap.entries_set_old (List.mem_map_of_mem hentry), List.filter_map,
    List.map_map]
  have hfilter : edges.entries.filter
      ((fun e : String × TopologyEdge => decide (near e.2 = n)) ∘
        fun e => if e.1 = id then (id, edge) else e) =
      edges.entries.filter fun e => near e.2 = n := by
    refine List.filter_congr fun e he => ?_
    show decide (near _ = n) = _
    rw [hends e he]
  rw [hfilter]
  exact (List.map_congr_left fun e _ => hkeys e).symm

theorem Indexed.remove (h : Indexed index near edges) (hedge : edges.get id = some edge) :
    Indexed (deleteFrom index (near edge) id) near (edges.delete id) := by
  intro n
  have hlist : ((edges.delete id).entries.filter fun e => near e.2 = n).map Prod.fst =
      (edgeIds index n).filter (· ≠ id) := by
    rw [h n, List.filter_map]
    show ((edges.entries.filter _).filter _).map Prod.fst = _
    rw [List.filter_filter, List.filter_filter]
    refine congrArg _ (List.filter_congr fun e _ => ?_)
    exact Bool.and_comm _ _
  rw [edgeIds_deleteFrom, hlist]
  split
  · rename_i heq
    rw [heq]
  · rename_i hne
    refine (List.filter_eq_self.mpr fun k hk => ?_).symm
    obtain ⟨other, hother, hnear⟩ := h.mem_iff.mp hk
    refine decide_eq_true ?_
    rintro rfl
    rw [hedge] at hother
    cases hother
    exact hne hnear.symm

theorem Indexed.drop (h : Indexed index near edges)
    (hnone : ∀ id edge, edges.get id = some edge → near edge ≠ a) :
    Indexed (index.delete a) near edges := by
  intro n
  rw [edgeIds_delete]
  split
  · rename_i heq
    subst heq
    rw [← h n]
    refine (List.eq_nil_iff_forall_not_mem.mpr fun id hid => ?_).symm
    obtain ⟨edge, hedge, hnear⟩ := h.mem_iff.mp hid
    exact hnone id edge hedge hnear
  · exact h n

end Index

/-! ## The graph -/

/-- Nodes and edges stand under their ids, edges between nodes that are there, and both ends are
indexed. -/
structure Sound (g : TopologyGraph) : Prop where
  node : ∀ id node, g.nodes.get id = some node → node.id = id
  edge : ∀ id edge, g.edges.get id = some edge → edge.id = id
  ends : ∀ id edge, g.edges.get id = some edge →
    g.nodes.has edge.sourceId = true ∧ g.nodes.has edge.targetId = true
  outgoing : Indexed g.outEdges (·.sourceId) g.edges
  incoming : Indexed g.inEdges (·.targetId) g.edges

variable {g : TopologyGraph}

theorem sound_empty : Sound {} := by
  refine ⟨?_, ?_, ?_, indexed_empty, indexed_empty⟩
  · rintro id node ⟨⟩
  · rintro id edge ⟨⟩
  · rintro id edge ⟨⟩

theorem Sound.setNode (h : Sound g) (node : TopologyNode) :
    Sound { g with nodes := g.nodes.set node.id node } := by
  have hgrow : ∀ id, g.nodes.has id = true → (g.nodes.set node.id node).has id = true := by
    intro id hid
    unfold OrderedMap.has at hid ⊢
    rw [OrderedMap.get_set]
    split
    · rfl
    · exact hid
  refine ⟨fun id other hget => ?_, h.edge, fun id edge hget => ?_, h.outgoing, h.incoming⟩
  · dsimp only at hget
    rw [OrderedMap.get_set] at hget
    split at hget
    · rename_i heq
      cases hget
      exact heq.symm
    · exact h.node id other hget
  · obtain ⟨hsource, htarget⟩ := h.ends id edge hget
    exact ⟨hgrow _ hsource, hgrow _ htarget⟩

theorem Sound.loadNodes (nodes : List TopologyNode) : ∀ g, Sound g → Sound (loadNodes nodes g) := by
  induction nodes with
  | nil => exact fun _ h => h
  | cons node rest ih => exact fun g h => ih _ (h.setNode node)

theorem Sound.storeEdge (h : Sound g) {edge : TopologyEdge}
    (hsource : g.nodes.has edge.sourceId = true) (htarget : g.nodes.has edge.targetId = true)
    (hkept : Kept edge g) : Sound (storeEdge edge g) := by
  have hget : ∀ id other, (g.edges.set edge.id edge).get id = some other →
      (id = edge.id ∧ other = edge) ∨ g.edges.get id = some other := by
    intro id other hother
    rw [OrderedMap.get_set] at hother
    split at hother
    · cases hother
      exact Or.inl ⟨by assumption, rfl⟩
    · exact Or.inr hother
  refine ⟨h.node, fun id other hother => ?_, fun id other hother => ?_, ?_, ?_⟩
  · rcases hget id other hother with ⟨rfl, rfl⟩ | hold
    · rfl
    · exact h.edge id other hold
  · rcases hget id other hother with ⟨-, rfl⟩ | hold
    · exact ⟨hsource, htarget⟩
    · exact h.ends id other hold
  · cases hold : g.edges.get edge.id with
    | none => exact h.outgoing.add_new (OrderedMap.get_eq_none_iff.mp hold)
    | some old => exact h.outgoing.add_old hold (hkept hsource htarget old hold).1
  · cases hold : g.edges.get edge.id with
    | none => exact h.incoming.add_new (OrderedMap.get_eq_none_iff.mp hold)
    | some old => exact h.incoming.add_old hold (hkept hsource htarget old hold).2

theorem insertEdge_cases (edge : TopologyEdge) (g : TopologyGraph) :
    (g.nodes.has edge.sourceId = true ∧ g.nodes.has edge.targetId = true ∧
      insertEdge edge g = (.ok edge, storeEdge edge g)) ∨
    ∃ e, insertEdge edge g = (.error e, g) := by
  unfold insertEdge
  split
  · exact Or.inr ⟨_, rfl⟩
  · rename_i hsource
    split
    · exact Or.inr ⟨_, rfl⟩
    · rename_i htarget
      exact Or.inl ⟨(Bool.not_eq_false _).mp hsource, (Bool.not_eq_false _).mp htarget, rfl⟩

theorem Sound.insertEdge (h : Sound g) {edge : TopologyEdge} (hkept : Kept edge g) :
    Sound (insertEdge edge g).2 := by
  rcases insertEdge_cases edge g with ⟨hsource, htarget, hstored⟩ | ⟨e, hthrown⟩
  · rw [hstored]
    exact h.storeEdge hsource htarget hkept
  · rw [hthrown]
    exact h

/-! ## Removal -/

theorem Sound.removeEdge (h : Sound g) (id : String) : Sound (removeEdge id g).2 := by
  unfold TopologyStore.removeEdge
  split
  · exact h
  · rename_i edge hedge
    have hget : ∀ k other, (g.edges.delete id).get k = some other →
        g.edges.get k = some other := by
      intro k other hother
      rw [OrderedMap.get_delete] at hother
      split at hother
      · cases hother
      · exact hother
    exact ⟨h.node, fun k other hother => h.edge k other (hget k other hother),
      fun k other hother => h.ends k other (hget k other hother),
      h.outgoing.remove hedge, h.incoming.remove hedge⟩

theorem get_removeEdge (id k : String) (g : TopologyGraph) :
    (removeEdge id g).2.edges.get k = if k = id then none else g.edges.get k := by
  unfold removeEdge
  split
  · rename_i hnone
    split
    · rename_i heq
      rw [heq]
      exact hnone
    · rfl
  · exact OrderedMap.get_delete

theorem Sound.removeEdges (ids : List String) : ∀ g, Sound g → Sound (removeEdges ids g) := by
  induction ids with
  | nil => exact fun _ h => h
  | cons id rest ih => exact fun g h => ih _ (h.removeEdge id)

theorem get_removeEdges (k : String) (ids : List String) : ∀ g : TopologyGraph,
    (removeEdges ids g).edges.get k = if k ∈ ids then none else g.edges.get k := by
  induction ids with
  | nil =>
    intro g
    rw [if_neg List.not_mem_nil]
    rfl
  | cons id rest ih =>
    intro g
    show (removeEdges rest (removeEdge id g).2).edges.get k = _
    rw [ih, get_removeEdge]
    by_cases hid : k = id <;> by_cases hrest : k ∈ rest <;> simp [hid, hrest]

theorem Sound.removeNode (h : Sound g) (id : String) : Sound (removeNode id g).2 := by
  unfold TopologyStore.removeNode
  split
  · exact h
  · have hrest := h.removeEdges (edgeIds g.outEdges id ++ edgeIds g.inEdges id)
    -- no edge is left at the node that goes
    have hfree : ∀ k edge, (TopologyStore.removeEdges
        (edgeIds g.outEdges id ++ edgeIds g.inEdges id) g).edges.get k = some edge →
        edge.sourceId ≠ id ∧ edge.targetId ≠ id := by
      intro k edge hget
      rw [get_removeEdges] at hget
      split at hget
      · cases hget
      · rename_i hnot
        rw [List.mem_append, not_or] at hnot
        exact ⟨fun heq => hnot.1 (h.outgoing.mem_iff.mpr ⟨edge, hget, heq⟩),
          fun heq => hnot.2 (h.incoming.mem_iff.mpr ⟨edge, hget, heq⟩)⟩
    refine ⟨fun k node hget => ?_, hrest.edge, fun k edge hget => ?_,
      hrest.outgoing.drop fun k edge hget => (hfree k edge hget).1,
      hrest.incoming.drop fun k edge hget => (hfree k edge hget).2⟩
    · dsimp only at hget
      rw [OrderedMap.get_delete] at hget
      split at hget
      · cases hget
      · exact hrest.node k node hget
    · obtain ⟨hsource, htarget⟩ := hfree k edge hget
      obtain ⟨hhas, hhas'⟩ := hrest.ends k edge hget
      unfold OrderedMap.has at hhas hhas' ⊢
      dsimp only
      rw [OrderedMap.get_delete, OrderedMap.get_delete, if_neg hsource, if_neg htarget]
      exact ⟨hhas, hhas'⟩

/-! ## Runs -/

theorem Sound.loadEdges (edges : List TopologyEdge) : ∀ g, Sound g → AllKept edges g →
    Sound (loadEdges edges g).2 := by
  induction edges with
  | nil => exact fun _ h _ => h
  | cons edge rest ih =>
    rintro g h ⟨hkept, hrest⟩
    have hone := h.insertEdge hkept
    rw [TopologyStore.loadEdges]
    rcases insertEdge_cases edge g with ⟨-, -, hstored⟩ | ⟨e, hthrown⟩
    · rw [hstored] at hone hrest ⊢
      exact ih _ hone (hrest rfl)
    · rw [hthrown]
      exact h

end TopologyStore

open TopologyStore

def TopologyCall.run (calls : List TopologyCall) (g : TopologyGraph) : TopologyGraph :=
  calls.foldl (fun g call => call.apply g) g

def TopologyCall.ProperRun : List TopologyCall → TopologyGraph → Prop
  | [], _ => True
  | call :: rest, g => call.Proper g ∧ ProperRun rest (call.apply g)

theorem TopologyStore.Sound.apply {g : TopologyGraph} (h : Sound g) {call : TopologyCall}
    (hproper : call.Proper g) : Sound (call.apply g) := by
  cases call with
  | addNode params => exact h.setNode params.node
  | addServiceNode service =>
    show Sound (TopologyStore.addServiceNode service g).2
    unfold TopologyStore.addServiceNode
    split
    · exact h
    · exact h.setNode _
  | addEdge params => exact h.insertEdge hproper
  | removeEdge id => exact h.removeEdge id
  | removeNode id => exact h.removeNode id
  | loadJSON nodes edges =>
    exact Sound.loadEdges edges _ (Sound.loadNodes nodes _ sound_empty) hproper
  | clear => exact sound_empty

theorem TopologyStore.Sound.run (calls : List TopologyCall) : ∀ g, Sound g →
    TopologyCall.ProperRun calls g → Sound (TopologyCall.run calls g) := by
  induction calls with
  | nil => exact fun _ h _ => h
  | cons call rest ih => exact fun g h hrun => ih _ (h.apply hrun.1) hrun.2

end OpenObs.DataLayer
