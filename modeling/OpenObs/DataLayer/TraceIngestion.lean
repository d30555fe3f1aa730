import OpenObs.DataLayer.TopologyLaw
import OpenObs.Foundation.Distinct
import OpenObs.Foundation.Text

/-!
# Topology from traces

`topology/TraceTopologyBuilder.ts`: a span whose parent belongs to another service records a call.
The calls of a batch are collected under one string for each pair, which is split again when the
edges are added.
-/

namespace OpenObs.DataLayer

open OpenObs.Foundation

structure SpanRef where
  spanId : String
  parentSpanId : String
  service : String
deriving DecidableEq

structure TraceRef where
  traceId : String
  spans : List SpanRef
deriving DecidableEq

structure IngestResult where
  nodesAdded : ℕ
  edgesAdded : ℕ
  tracesProcessed : ℕ
deriving DecidableEq

namespace TraceTopologyBuilder

open TopologyStore

/-! ## Ingestion -/

def spanServices (spans : List SpanRef) : OrderedMap String String :=
  spans.foldl (fun services span => services.set span.spanId span.service) {}

def crossServiceCall (services : OrderedMap String String) (span : SpanRef) :
    Option (String × String) :=
  if span.parentSpanId = "" then none
  else
    match services.get span.parentSpanId with
    | none => none
    | some parentService =>
      if parentService = "" ∨ parentService = span.service then none
      else some (parentService, span.service)

def pairKey (call : String × String) : String := call.1 ++ "::" ++ call.2

def servicesSeen (traces : List TraceRef) : List String :=
  (traces.flatMap fun trace => trace.spans.map (·.service)).eraseDups

def callPairs (traces : List TraceRef) : List String :=
  ((traces.flatMap fun trace =>
    trace.spans.filterMap (crossServiceCall (spanServices trace.spans))).map pairKey).eraseDups

/-- `const [sourceId, targetId] = pair.split('::')`; a pair has the separator. -/
def readPair (pair : String) : String × String :=
  match Text.pieces "::".toList 0 pair.toList with
  | sourceId :: targetId :: _ => (String.ofList sourceId, String.ofList targetId)
  | _ => (pair, "undefined")

def listEdges (type : EdgeType) (g : TopologyGraph) : List TopologyEdge :=
  g.edges.values.filter (·.type = type)

def hasManualEdge (sourceId targetId : String) (g : TopologyGraph) : Bool :=
  (listEdges .calls g).any fun e =>
    e.sourceId = sourceId && e.targetId = targetId && e.manual = some true

def hasAutoEdge (sourceId targetId : String) (g : TopologyGraph) : Bool :=
  (listEdges .calls g).any fun e =>
    e.sourceId = sourceId && e.targetId = targetId && !e.manual.getD false

def discoveredNode (serviceId : String) : NodeParams where
  id := some serviceId
  uuid := ""
  type := .service
  name := serviceId
  metadata := [("source", "trace-discovery")]
  tags := []

def discoveredEdge (uuid : String) (call : String × String) : EdgeParams where
  uuid := uuid
  type := .calls
  sourceId := call.1
  targetId := call.2
  metadata := some [("source", "trace-discovery")]
  manual := some false

def ensureNodes : List String → TopologyGraph → ℕ × TopologyGraph
  | [], g => (0, g)
  | serviceId :: rest, g =>
    if g.nodes.has serviceId then ensureNodes rest g
    else
      let added := ensureNodes rest (addNode (discoveredNode serviceId) g).2
      (added.1 + 1, added.2)

/-- The edges of the pairs, up to the first that throws; the ids are drawn from `k` on. -/
def addEdges (uuid : ℕ → String) : ℕ → List String → TopologyGraph → Except String ℕ × TopologyGraph
  | _, [], g => (.ok 0, g)
  | k, pair :: rest, g =>
    let call := readPair pair
    if hasManualEdge call.1 call.2 g then addEdges uuid k rest g
    else if hasAutoEdge call.1 call.2 g then addEdges uuid k rest g
    else
      match addEdge (discoveredEdge (uuid k) call) g with
      | (.error e, g) => (.error e, g)
      | (.ok _, g) =>
        let added := addEdges uuid (k + 1) rest g
        (added.1.map (· + 1), added.2)

def ingestTraces (uuid : ℕ → String) (traces : List TraceRef) (g : TopologyGraph) :
    Except String IngestResult × TopologyGraph :=
  let nodes := ensureNodes (servicesSeen traces) g
  let edges := addEdges uuid 0 (callPairs traces) nodes.2
  (edges.1.map fun edgesAdded => ⟨nodes.1, edgesAdded, traces.length⟩, edges.2)

/-! ## Calls -/

def Calls (traces : List TraceRef) (call : String × String) : Prop :=
  ∃ trace ∈ traces, ∃ span ∈ trace.spans, ∃ parent ∈ trace.spans,
    span.parentSpanId ≠ "" ∧ parent.spanId = span.parentSpanId ∧
      parent.service = call.1 ∧ span.service = call.2 ∧ call.1 ≠ call.2

def HasCall (call : String × String) (g : TopologyGraph) : Prop :=
  ∃ e ∈ g.edges.values, e.type = .calls ∧ e.sourceId = call.1 ∧ e.targetId = call.2

def readAs (call : String × String) : String × String := readPair (pairKey call)

section Pairs

variable {traces : List TraceRef} {call : String × String} {g : TopologyGraph}

theorem get_spanServices {spans : List SpanRef} (hids : (spans.map (·.spanId)).Nodup)
    {id service : String} : (spanServices spans).get id = some service ↔
      ∃ span ∈ spans, span.spanId = id ∧ span.service = service := by
  unfold spanServices
  induction spans using List.reverseRecOn with
  | nil => simp
  | append_singleton spans last ih =>
    rw [List.map_append, List.nodup_append] at hids
    obtain ⟨hbefore, -, hapart⟩ := hids
    rw [List.foldl_concat, OrderedMap.get_set]
    split
    · rename_i heq
      subst heq
      constructor
      · intro h
        exact ⟨last, by simp, rfl, Option.some.inj h⟩
      · rintro ⟨span, hspan, hid, rfl⟩
        rcases List.mem_append.mp hspan with hspan | hspan
        · exact absurd hid (hapart _ (List.mem_map_of_mem hspan) _ (by simp))
        · rw [List.mem_singleton.mp hspan]
    · rename_i hne
      rw [ih hbefore]
      constructor
      · rintro ⟨span, hspan, h⟩
        exact ⟨span, List.mem_append_left _ hspan, h⟩
      · rintro ⟨span, hspan, hid, h⟩
        rcases List.mem_append.mp hspan with hspan | hspan
        · exact ⟨span, hspan, hid, h⟩
        · rw [List.mem_singleton.mp hspan] at hid
          exact absurd hid.symm hne

theorem mem_callPairs (hids : ∀ trace ∈ traces, (trace.spans.map (·.spanId)).Nodup)
    (hnames : ∀ trace ∈ traces, ∀ span ∈ trace.spans, span.service ≠ "") {pair : String} :
    pair ∈ callPairs traces ↔ ∃ call, Calls traces call ∧ pair = pairKey call := by
  rw [callPairs, List.mem_eraseDups, List.mem_map]
  constructor
  · rintro ⟨call, hcall, rfl⟩
    refine ⟨call, ?_, rfl⟩
    obtain ⟨trace, htrace, hcall⟩ := List.mem_flatMap.mp hcall
    obtain ⟨span, hspan, hcross⟩ := List.mem_filterMap.mp hcall
    unfold crossServiceCall at hcross
    split at hcross
    · cases hcross
    · rename_i hroot
      split at hcross
      · cases hcross
      · rename_i parentService hparent
        split at hcross
        · cases hcross
        · rename_i hother
          obtain rfl := Option.some.inj hcross
          obtain ⟨parent, hmem, hid, hservice⟩ := (get_spanServices (hids trace htrace)).mp hparent
          exact ⟨trace, htrace, span, hspan, parent, hmem, hroot, hid, hservice, rfl,
            fun heq => hother (Or.inr heq)⟩
  · rintro ⟨call, ⟨trace, htrace, span, hspan, parent, hparent, hroot, hid, hfrom, hto, hne⟩, rfl⟩
    refine ⟨call, List.mem_flatMap.mpr ⟨trace, htrace, List.mem_filterMap.mpr ⟨span, hspan, ?_⟩⟩,
      rfl⟩
    have hget : (spanServices trace.spans).get span.parentSpanId = some call.1 :=
      (get_spanServices (hids trace htrace)).mpr ⟨parent, hparent, hid, hfrom⟩
    have hnamed : ¬ (call.1 = "" ∨ call.1 = span.service) := by
      rw [hto, not_or]
      exact ⟨hfrom ▸ hnames trace htrace parent hparent, hne⟩
    rw [crossServiceCall, if_neg hroot, hget]
    dsimp only
    rw [if_neg hnamed, hto]

theorem mem_servicesSeen {service : String} : service ∈ servicesSeen traces ↔
    ∃ trace ∈ traces, ∃ span ∈ trace.spans, span.service = service := by
  simp [servicesSeen]

theorem Calls.seen (h : Calls traces call) :
    call.1 ∈ servicesSeen traces ∧ call.2 ∈ servicesSeen traces := by
  obtain ⟨trace, htrace, span, hspan, parent, hparent, -, -, hfrom, hto, -⟩ := h
  exact ⟨mem_servicesSeen.mpr ⟨trace, htrace, parent, hparent, hfrom⟩,
    mem_servicesSeen.mpr ⟨trace, htrace, span, hspan, hto⟩⟩

theorem hasEdge_iff : hasManualEdge call.1 call.2 g = true ∨ hasAutoEdge call.1 call.2 g = true ↔
    HasCall call g := by
  simp only [hasManualEdge, hasAutoEdge, listEdges, List.any_eq_true, List.mem_filter,
    Bool.and_eq_true, decide_eq_true_eq, HasCall]
  constructor
  · rintro (⟨e, ⟨he, htype⟩, ⟨hfrom, hto⟩, -⟩ | ⟨e, ⟨he, htype⟩, ⟨hfrom, hto⟩, -⟩)
    · exact ⟨e, he, htype, hfrom, hto⟩
    · exact ⟨e, he, htype, hfrom, hto⟩
  · rintro ⟨e, he, htype, hfrom, hto⟩
    by_cases hmanual : e.manual = some true
    · exact Or.inl ⟨e, ⟨he, htype⟩, ⟨hfrom, hto⟩, hmanual⟩
    · refine Or.inr ⟨e, ⟨he, htype⟩, ⟨hfrom, hto⟩, ?_⟩
      cases hm : e.manual with
      | none => rfl
      | some manual =>
        cases manual with
        | false => rfl
        | true => exact absurd hm hmanual

end Pairs

/-! ## Nodes and edges -/

section Growth

variable {g g' : TopologyGraph} {call : String × String} {uuid : ℕ → String}

theorem ensureNodes_spec : ∀ (ids : List String) (g : TopologyGraph),
    (ensureNodes ids g).2.edges = g.edges ∧
      (∃ added, (ensureNodes ids g).2.nodes.entries = g.nodes.entries ++ added) ∧
      ∀ id, id ∈ ids ∨ g.nodes.has id = true → (ensureNodes ids g).2.nodes.has id = true
  | [], g => ⟨rfl, ⟨[], (List.append_nil _).symm⟩, by simp [ensureNodes]⟩
  | id :: ids, g => by
    rw [ensureNodes]
    split
    · rename_i hhas
      obtain ⟨hedges, hnodes, hall⟩ := ensureNodes_spec ids g
      refine ⟨hedges, hnodes, fun id' h => hall id' ?_⟩
      rcases h with h | h
      · rcases List.mem_cons.mp h with rfl | h
        · exact Or.inr hhas
        · exact Or.inl h
      · exact Or.inr h
    · rename_i hhas
      obtain ⟨hedges, ⟨added, hnodes⟩, hall⟩ := ensureNodes_spec ids (addNode
        { id := some id, uuid := "", type := .service, name := id
          metadata := [("source", "trace-discovery")], tags := [] } g).2
      refine ⟨hedges, ?_, fun id' h => hall id' ?_⟩
      · refine ⟨(id, (discoveredNode id).node) :: added, hnodes.trans ?_⟩
        show (g.nodes.set id (discoveredNode id).node).entries ++ added = _
        rw [OrderedMap.entries_set_new fun hmem => hhas (OrderedMap.has_iff.mpr hmem),
          List.append_assoc]
        rfl
      · show id' ∈ ids ∨ (g.nodes.set id _).has id' = true
        rw [OrderedMap.has_iff, OrderedMap.keys_set]
        rw [OrderedMap.has_iff] at h hhas
        rw [if_neg hhas, List.mem_append, List.mem_singleton]
        rcases h with h | h
        · rcases List.mem_cons.mp h with rfl | h
          · exact Or.inr (Or.inr rfl)
          · exact Or.inl h
        · exact Or.inr (Or.inl h)

theorem ensureNodes_again : ∀ {ids : List String}, (∀ id ∈ ids, g.nodes.has id = true) →
    ensureNodes ids g = (0, g)
  | [], _ => rfl
  | id :: ids, h => by
    rw [ensureNodes, if_pos (h id List.mem_cons_self)]
    exact ensureNodes_again fun id' hid => h id' (List.mem_cons_of_mem id hid)

theorem HasCall.grow (h : HasCall call g) {added : List (String × TopologyEdge)}
    (hgrow : g'.edges.entries = g.edges.entries ++ added) : HasCall call g' := by
  obtain ⟨e, he, h⟩ := h
  refine ⟨e, ?_, h⟩
  rw [OrderedMap.values, hgrow, List.map_append]
  exact List.mem_append_left _ he

theorem hasCall_grown {added : List (String × TopologyEdge)}
    (hgrow : g'.edges.entries = g.edges.entries ++ added) : HasCall call g' ↔
      HasCall call g ∨ ∃ e ∈ added, e.2.type = .calls ∧ e.2.sourceId = call.1 ∧
        e.2.targetId = call.2 := by
  constructor
  · rintro ⟨e, he, h⟩
    rw [OrderedMap.values, hgrow, List.map_append, List.mem_append] at he
    rcases he with he | he
    · exact Or.inl ⟨e, he, h⟩
    · obtain ⟨entry, hentry, rfl⟩ := List.mem_map.mp he
      exact Or.inr ⟨entry, hentry, h⟩
  · rintro (h | ⟨e, he, h⟩)
    · exact h.grow hgrow
    · refine ⟨e.2, ?_, h⟩
      rw [OrderedMap.values, hgrow, List.map_append]
      exact List.mem_append_right _ (List.mem_map_of_mem he)

structure Grown (pairs : List String) (g g' : TopologyGraph)
    (added : List (String × TopologyEdge)) : Prop where
  nodes : g'.nodes = g.nodes
  edges : g'.edges.entries = g.edges.entries ++ added
  missing : ∀ e ∈ added, e.2.type = .calls ∧ ∃ pair ∈ pairs,
    readPair pair = (e.2.sourceId, e.2.targetId) ∧ ¬ HasCall (readPair pair) g

inductive Added (pairs : List String) (g g' : TopologyGraph) : Except String ℕ → Prop where
  | all (n : ℕ) (h : ∀ pair ∈ pairs, HasCall (readPair pair) g') : Added pairs g g' (.ok n)
  | thrown (e : String) (h : ∃ pair ∈ pairs, ¬ HasCall (readPair pair) g ∧
      ¬ (g.nodes.has (readPair pair).1 = true ∧ g.nodes.has (readPair pair).2 = true)) :
      Added pairs g g' (.error e)

theorem addEdges_there {pair : String} {rest : List String} {k : ℕ}
    (h : HasCall (readPair pair) g) : addEdges uuid k (pair :: rest) g = addEdges uuid k rest g := by
  rw [addEdges]
  rcases hasEdge_iff.mpr h with h | h
  · rw [if_pos h]
  · rw [if_pos h, ite_self]

theorem addEdges_again : ∀ {pairs : List String} (k : ℕ),
    (∀ pair ∈ pairs, HasCall (readPair pair) g) → addEdges uuid k pairs g = (.ok 0, g)
  | [], _, _ => rfl
  | pair :: rest, k, h => by
    rw [addEdges_there (h pair List.mem_cons_self)]
    exact addEdges_again k fun pair' hpair => h pair' (List.mem_cons_of_mem pair hpair)

theorem addEdges_spec (huuid : Function.Injective uuid) : ∀ (pairs : List String) (k : ℕ)
    (g : TopologyGraph), (∀ j, k ≤ j → uuid j ∉ g.edges.keys) →
      ∃ r g' added, addEdges uuid k pairs g = (r, g') ∧ Grown pairs g g' added ∧
        Added pairs g g' r
  | [], _, g, _ => ⟨.ok 0, g, [], rfl, ⟨rfl, (List.append_nil _).symm, nofun⟩, .all 0 nofun⟩
  | pair :: rest, k, g, hnew => by
    by_cases hthere : HasCall (readPair pair) g
    · obtain ⟨r, g', added, hrun, hgrown, hend⟩ := addEdges_spec huuid rest k g hnew
      refine ⟨r, g', added, (addEdges_there hthere).trans hrun,
        ⟨hgrown.nodes, hgrown.edges, fun e he => ?_⟩, ?_⟩
      · obtain ⟨htype, pair', hpair, h⟩ := hgrown.missing e he
        exact ⟨htype, pair', List.mem_cons_of_mem pair hpair, h⟩
      · cases hend with
        | all n h =>
          refine .all n fun pair' hpair => ?_
          rcases List.mem_cons.mp hpair with rfl | hpair
          · exact hthere.grow hgrown.edges
          · exact h pair' hpair
        | thrown e h =>
          obtain ⟨pair', hpair, h⟩ := h
          exact .thrown e ⟨pair', List.mem_cons_of_mem pair hpair, h⟩
    · obtain ⟨hmanual, hauto⟩ := not_or.mp fun h => hthere (hasEdge_iff.mp h)
      rw [addEdges]
      dsimp only
      rw [if_neg hmanual, if_neg hauto]
      by_cases hnodes : g.nodes.has (readPair pair).1 = true ∧
          g.nodes.has (readPair pair).2 = true
      · -- the edge is stored under an id that is new, and so are those drawn later
        set edge := (discoveredEdge (uuid k) (readPair pair)).edge with hedge
        have hadd : addEdge (discoveredEdge (uuid k) (readPair pair)) g =
            (.ok edge, storeEdge edge g) := by
          rw [addEdge, insertEdge]
          show (if g.nodes.has (readPair pair).1 = false then _
            else if g.nodes.has (readPair pair).2 = false then _ else _) = _
          rw [hnodes.1, hnodes.2, if_neg (by decide), if_neg (by decide)]
        have hentries : (storeEdge edge g).edges.entries =
            g.edges.entries ++ [(uuid k, edge)] :=
          OrderedMap.entries_set_new (hnew k (Nat.le_refl k))
        have hlater : ∀ j, k + 1 ≤ j → uuid j ∉ (storeEdge edge g).edges.keys := by
          intro j hj
          rw [OrderedMap.keys, hentries, List.map_append, List.mem_append, not_or]
          refine ⟨hnew j (Nat.le_of_succ_le hj), fun hmem => ?_⟩
          have hsame := huuid (List.mem_singleton.mp hmem)
          omega
        obtain ⟨r, g', added, hrun, hgrown, hend⟩ :=
          addEdges_spec huuid rest (k + 1) (storeEdge edge g) hlater
        have hgrow : g'.edges.entries = g.edges.entries ++ (uuid k, edge) :: added := by
          rw [hgrown.edges, hentries, List.append_assoc]
          rfl
        rw [hadd]
        dsimp only
        rw [hrun]
        refine ⟨_, g', (uuid k, edge) :: added, rfl, ⟨hgrown.nodes, hgrow, fun e he => ?_⟩, ?_⟩
        · rcases List.mem_cons.mp he with rfl | he
          · exact ⟨rfl, pair, List.mem_cons_self, rfl, hthere⟩
          · obtain ⟨htype, pair', hpair, hread, hmissing⟩ := hgrown.missing e he
            exact ⟨htype, pair', List.mem_cons_of_mem pair hpair, hread,
              fun h => hmissing (h.grow hentries)⟩
        · cases hend with
          | all n h =>
            refine .all (n + 1) fun pair' hpair => ?_
            rcases List.mem_cons.mp hpair with rfl | hpair
            · exact (hasCall_grown hgrow).mpr (Or.inr ⟨_, List.mem_cons_self, rfl, rfl, rfl⟩)
            · exact h pair' hpair
          | thrown e h =>
            obtain ⟨pair', hpair, hmissing, h⟩ := h
            exact .thrown e ⟨pair', List.mem_cons_of_mem pair hpair,
              fun h => hmissing (h.grow hentries), h⟩
      · have hadd : ∃ e, addEdge (discoveredEdge (uuid k) (readPair pair)) g = (.error e, g) := by
          rcases insertEdge_cases (discoveredEdge (uuid k) (readPair pair)).edge g with
            ⟨hsource, htarget, -⟩ | h
          · exact absurd ⟨hsource, htarget⟩ hnodes
          · exact h
        obtain ⟨e, hadd⟩ := hadd
        rw [hadd]
        exact ⟨.error e, g, [], rfl, ⟨rfl, (List.append_nil _).symm, nofun⟩,
          .thrown e ⟨pair, List.mem_cons_self, hthere, hnodes⟩⟩

end Growth

/-! ## Exactness -/

structure Exact (uuid uuid' : ℕ → String) (traces : List TraceRef) (g : TopologyGraph) : Prop where
  returns : ∃ result, (ingestTraces uuid traces g).1 = .ok result
  recorded : ∀ call, Calls traces call → HasCall call (ingestTraces uuid traces g).2
  edges : ∃ added, (ingestTraces uuid traces g).2.edges.entries = g.edges.entries ++ added ∧
    ∀ e ∈ added, e.2.type = .calls ∧ Calls traces (e.2.sourceId, e.2.targetId) ∧
      ¬ HasCall (e.2.sourceId, e.2.targetId) g
  nodes : ∃ added, (ingestTraces uuid traces g).2.nodes.entries = g.nodes.entries ++ added
  again : (ingestTraces uuid' traces (ingestTraces uuid traces g).2).2 =
    (ingestTraces uuid traces g).2

/-- What a call is read as is a call too, or has its edge; and every call is what one is read as,
or has its edge. -/
def ReadsBack (traces : List TraceRef) (g : TopologyGraph) : Prop :=
  ∀ call, Calls traces call →
    (HasCall (readAs call) g ∨ Calls traces (readAs call)) ∧
      (HasCall call g ∨ ∃ other, Calls traces other ∧ readAs other = call)

section Ingestion

variable {traces : List TraceRef} {g : TopologyGraph} {uuid uuid' : ℕ → String}

theorem ingestTraces_again (hnodes : ∀ id ∈ servicesSeen traces, g.nodes.has id = true)
    (hedges : ∀ pair ∈ callPairs traces, HasCall (readPair pair) g) :
    (ingestTraces uuid traces g).2 = g := by
  rw [ingestTraces, ensureNodes_again hnodes]
  dsimp only
  rw [addEdges_again 0 hedges]

theorem exact_iff (hids : ∀ trace ∈ traces, (trace.spans.map (·.spanId)).Nodup)
    (hnames : ∀ trace ∈ traces, ∀ span ∈ trace.spans, span.service ≠ "")
    (huuid : Function.Injective uuid) (hnew : ∀ k, uuid k ∉ g.edges.keys) :
    Exact uuid uuid' traces g ↔ ReadsBack traces g := by
  obtain ⟨hedges₁, hnodes₁, hhas₁⟩ := ensureNodes_spec (servicesSeen traces) g
  have hpairs := @mem_callPairs traces hids hnames
  set g₁ := (ensureNodes (servicesSeen traces) g).2 with hg₁
  have hcall₁ : ∀ call, HasCall call g₁ ↔ HasCall call g := fun call => by
    rw [HasCall, hedges₁, HasCall]
  obtain ⟨r, g', added, hrun, hgrown, hend⟩ := addEdges_spec huuid (callPairs traces) 0 g₁
    fun j _ => by
      rw [hedges₁]
      exact hnew j
  have hingest : (ingestTraces uuid traces g).2 = g' := by
    rw [ingestTraces, ← hg₁, hrun]
  have hgrow : g'.edges.entries = g.edges.entries ++ added := by
    rw [hgrown.edges, hedges₁]
  have hhas : ∀ id ∈ servicesSeen traces, g₁.nodes.has id = true := fun id hid =>
    hhas₁ id (Or.inl hid)
  constructor
  · intro hexact call hcall
    -- it has returned, so that what a call is read as has an edge by now
    obtain ⟨result, hresult⟩ := hexact.returns
    obtain ⟨added', hadded', hform⟩ := hexact.edges
    have hrecorded := hexact.recorded call hcall
    rw [hingest] at hadded' hrecorded
    obtain rfl : added = added' := List.append_cancel_left (hgrow.symm.trans hadded')
    constructor
    · cases hend with
      | thrown e h =>
        rw [ingestTraces, ← hg₁, hrun] at hresult
        cases hresult
      | all n hall =>
        have hread := hall (pairKey call) (hpairs.mpr ⟨call, hcall, rfl⟩)
        rcases (hasCall_grown hgrow).mp hread with h | ⟨e, he, -, hfrom, hto⟩
        · exact Or.inl h
        · have hform := (hform e he).2.1
          rw [hfrom, hto] at hform
          exact Or.inr hform
    · rcases (hasCall_grown hgrow).mp hrecorded with h | ⟨e, he, -, hfrom, hto⟩
      · exact Or.inl h
      · obtain ⟨-, pair, hpair, hread, -⟩ := hgrown.missing e he
        obtain ⟨other, hother, rfl⟩ := hpairs.mp hpair
        rw [hfrom, hto] at hread
        exact Or.inr ⟨other, hother, hread⟩
  · intro hreads
    have hall : ∃ n, r = .ok n ∧ ∀ pair ∈ callPairs traces, HasCall (readPair pair) g' := by
      cases hend with
      | all n hall => exact ⟨n, rfl, hall⟩
      | thrown e h =>
        obtain ⟨pair, hpair, hmissing, hends⟩ := h
        obtain ⟨call, hcall, rfl⟩ := hpairs.mp hpair
        rcases (hreads call hcall).1 with h | h
        · exact absurd ((hcall₁ _).mpr h) hmissing
        · exact absurd ⟨hhas _ h.seen.1, hhas _ h.seen.2⟩ hends
    obtain ⟨n, rfl, hall⟩ := hall
    refine ⟨?_, fun call hcall => ?_, ⟨added, ?_, fun e he => ?_⟩, ?_, ?_⟩
    · rw [ingestTraces, ← hg₁, hrun]
      exact ⟨_, rfl⟩
    · rw [hingest]
      rcases (hreads call hcall).2 with h | ⟨other, hother, rfl⟩
      · exact h.grow hgrow
      · exact hall _ (hpairs.mpr ⟨other, hother, rfl⟩)
    · rw [hingest]
      exact hgrow
    · obtain ⟨htype, pair, hpair, hread, hmissing⟩ := hgrown.missing e he
      obtain ⟨call, hcall, rfl⟩ := hpairs.mp hpair
      rw [hcall₁] at hmissing
      rw [← hread]
      exact ⟨htype, (hreads call hcall).1.resolve_left hmissing, hmissing⟩
    · rw [hingest, hgrown.nodes]
      exact hnodes₁
    · rw [hingest]
      refine ingestTraces_again (fun id hid => ?_) hall
      rw [hgrown.nodes]
      exact hhas id hid

end Ingestion

def longerIds (k : ℕ) : String := String.ofList (List.replicate k 'e')

theorem longerIds_injective : Function.Injective longerIds := by
  intro j k h
  have hlist := congrArg (fun s : String => s.toList.length) h
  simpa [longerIds] using hlist

def webTrace : TraceRef := ⟨"t1", [⟨"1", "", "web"⟩, ⟨"2", "1", "api"⟩, ⟨"3", "2", "db"⟩]⟩

theorem exact_iff_web :
    Exact longerIds longerIds [webTrace] {} ↔ ReadsBack [webTrace] {} :=
  exact_iff (by decide) (by decide) longerIds_injective (fun _ => List.not_mem_nil)

def namespacedTrace : TraceRef := ⟨"t1", [⟨"1", "", "billing::web"⟩, ⟨"2", "1", "db"⟩]⟩

theorem namespaced_caller_throws :
    ¬ ∀ (uuid uuid' : ℕ → String) (traces : List TraceRef) (g : TopologyGraph),
      (∀ trace ∈ traces, (trace.spans.map (·.spanId)).Nodup) →
      (∀ trace ∈ traces, ∀ span ∈ trace.spans, span.service ≠ "") →
      Function.Injective uuid → (∀ k, uuid k ∉ g.edges.keys) → Exact uuid uuid' traces g := by
  intro hall
  obtain ⟨result, hresult⟩ := (hall longerIds longerIds [namespacedTrace] {} (by decide) (by decide)
    longerIds_injective fun _ => List.not_mem_nil).returns
  have hsome : (ingestTraces longerIds [namespacedTrace] {}).1.toOption.isSome = true :=
    congrArg (fun r => r.toOption.isSome) hresult
  exact absurd hsome (by decide +kernel)

end TraceTopologyBuilder

end OpenObs.DataLayer
