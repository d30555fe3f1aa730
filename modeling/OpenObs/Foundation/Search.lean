import Mathlib.Data.List.Nodup
import Mathlib.Data.List.Perm.Subperm

/-!
# Breadth-first search

A search keeps a queue of keys, the keys it has visited, and the nodes it has found. It
takes the first key of the queue and meets the neighbours of its node one after the
other. In a finite universe the search ends, and has found what is reachable.
-/

namespace OpenObs.Foundation

structure Search (κ ν : Type) where
  queue : List κ
  visited : List κ
  result : List ν := []

namespace Search

section Code

variable {κ ν : Type} [DecidableEq κ] (key : ν → κ)

def ofStart (start : κ) : Search κ ν := { queue := [start], visited := [start] }

def meet (s : Search κ ν) (n : ν) : Search κ ν :=
  if key n ∈ s.visited then s
  else {
    queue := s.queue ++ [key n]
    visited := s.visited ++ [key n]
    result := s.result ++ [n] }

/-- Until the queue is empty, for fewer than `fuel` keys. -/
def run (neighbors : κ → Except String (List ν)) : ℕ → Search κ ν → Except String (List ν)
  | 0, _ => throw "out of fuel"
  | fuel + 1, s =>
    match s.queue with
    | [] => pure s.result
    | current :: rest => do
        let ns ← neighbors current
        run neighbors fuel (ns.foldl (meet key) { s with queue := rest })

end Code

/-! ## What a search has found -/

variable {κ ν : Type} {key : ν → κ} {next : κ → List ν} {start current : κ} {s : Search κ ν}
  {P : κ → Prop} {n : ν} {U : List κ}

def Next (key : ν → κ) (next : κ → List ν) (a b : κ) : Prop := ∃ n ∈ next a, key n = b

/-- The nodes found are those visited, and a key that was visited is waiting, or is in `P`, or all
its neighbours were visited too. -/
structure Explored (key : ν → κ) (next : κ → List ν) (start : κ) (P : κ → Prop)
    (s : Search κ ν) : Prop where
  visited : s.visited = start :: s.result.map key
  nodup : s.visited.Nodup
  queue : ∀ k ∈ s.queue, k ∈ s.visited
  found : ∀ n ∈ s.result, ∃ k, Relation.ReflTransGen (Next key next) start k ∧ n ∈ next k
  closed : ∀ k ∈ s.visited, k ∈ s.queue ∨ P k ∨ ∀ n ∈ next k, key n ∈ s.visited

structure Found (key : ν → κ) (next : κ → List ν) (start : κ) (result : List ν) : Prop where
  nodup : (start :: result.map key).Nodup
  sound : ∀ n ∈ result, ∃ k, Relation.ReflTransGen (Next key next) start k ∧ n ∈ next k
  complete : ∀ k, Relation.ReflTransGen (Next key next) start k → k = start ∨ k ∈ result.map key

theorem explored_ofStart (key : ν → κ) (next : κ → List ν) (start : κ) :
    Explored key next start (fun _ => False) (ofStart start) where
  visited := rfl
  nodup := List.nodup_singleton _
  queue _ h := h
  found n h := by cases h
  closed k h := Or.inl h

theorem Explored.reached (h : Explored key next start P s) {k : κ} (hk : k ∈ s.visited) :
    Relation.ReflTransGen (Next key next) start k := by
  rw [h.visited, List.mem_cons] at hk
  rcases hk with rfl | hk
  · exact .refl
  · obtain ⟨n, hn, rfl⟩ := List.mem_map.mp hk
    obtain ⟨k, hreach, hnext⟩ := h.found n hn
    exact hreach.tail ⟨n, hnext, rfl⟩

theorem Explored.finish (h : Explored key next start (fun _ => False) s) (hqueue : s.queue = []) :
    Found key next start s.result := by
  refine ⟨h.visited ▸ h.nodup, h.found, fun k hreach => ?_⟩
  have hmem : k ∈ s.visited := by
    induction hreach with
    | refl =>
      rw [h.visited]
      exact List.mem_cons_self
    | @tail a b _ hab ih =>
      obtain ⟨n, hn, rfl⟩ := hab
      rcases h.closed a ih with hwaits | hfalse | hall
      · rw [hqueue] at hwaits
        cases hwaits
      · exact hfalse.elim
      · exact hall n hn
  rw [h.visited] at hmem
  exact List.mem_cons.mp hmem

theorem Explored.length_le (h : Explored key next start P s)
    (hU : ∀ k, ∀ n ∈ next k, key n ∈ U) : s.visited.length ≤ U.length + 1 := by
  have hsubset : s.visited ⊆ start :: U := by
    intro k hk
    rw [h.visited, List.mem_cons] at hk
    rcases hk with rfl | hk
    · exact List.mem_cons_self
    · obtain ⟨n, hn, rfl⟩ := List.mem_map.mp hk
      obtain ⟨a, -, hnext⟩ := h.found n hn
      exact List.mem_cons_of_mem _ (hU a n hnext)
  exact (List.subperm_of_subset h.nodup hsubset).length_le

section Steps

variable [DecidableEq κ]

theorem visited_meet (s : Search κ ν) (n : ν) :
    (∀ k ∈ s.visited, k ∈ (s.meet key n).visited) ∧ key n ∈ (s.meet key n).visited := by
  unfold meet
  split
  · rename_i h
    exact ⟨fun _ hk => hk, h⟩
  · exact ⟨fun _ hk => List.mem_append_left _ hk,
      List.mem_append_right _ (List.mem_singleton_self _)⟩

theorem visited_foldl (ns : List ν) : ∀ s : Search κ ν,
    (∀ k ∈ s.visited, k ∈ (ns.foldl (meet key) s).visited) ∧
      ∀ n ∈ ns, key n ∈ (ns.foldl (meet key) s).visited := by
  induction ns with
  | nil => exact fun s => ⟨fun _ hk => hk, fun _ hn => by cases hn⟩
  | cons n ns ih =>
    intro s
    obtain ⟨hkeep, hmet⟩ := @visited_meet _ _ key _ s n
    obtain ⟨hkeep', hmet'⟩ := ih (s.meet key n)
    refine ⟨fun k hk => hkeep' k (hkeep k hk), fun m hm => ?_⟩
    rcases List.mem_cons.mp hm with rfl | hm
    · exact hkeep' _ hmet
    · exact hmet' m hm

theorem Explored.meet (h : Explored key next start P s) {a : κ} (ha : a ∈ s.visited)
    (hn : n ∈ next a) : Explored key next start P (s.meet key n) := by
  unfold Search.meet
  split
  · exact h
  · rename_i hnew
    constructor
    case visited =>
      show s.visited ++ [key n] = _
      rw [h.visited, List.map_append]
      rfl
    case nodup =>
      refine List.nodup_append.mpr ⟨h.nodup, List.nodup_singleton _, ?_⟩
      rintro k hk k' hk' rfl
      rw [List.mem_singleton.mp hk'] at hk
      exact hnew hk
    case queue =>
      intro k hk
      rcases List.mem_append.mp hk with hk | hk
      · exact List.mem_append_left _ (h.queue k hk)
      · exact List.mem_append_right _ hk
    case found =>
      intro m hm
      rcases List.mem_append.mp hm with hm | hm
      · exact h.found m hm
      · rw [List.mem_singleton.mp hm]
        exact ⟨a, h.reached ha, hn⟩
    case closed =>
      intro k hk
      rcases List.mem_append.mp hk with hk | hk
      · rcases h.closed k hk with hwaits | hP | hall
        · exact Or.inl (List.mem_append_left _ hwaits)
        · exact Or.inr (Or.inl hP)
        · exact Or.inr (Or.inr fun m hm => List.mem_append_left _ (hall m hm))
      · exact Or.inl (List.mem_append_right _ hk)

theorem Explored.foldl {a : κ} (ns : List ν) : ∀ s : Search κ ν, Explored key next start P s →
    a ∈ s.visited → (∀ n ∈ ns, n ∈ next a) →
      Explored key next start P (ns.foldl (Search.meet key) s) := by
  induction ns with
  | nil => exact fun _ h _ _ => h
  | cons n ns ih =>
    intro s h ha hns
    refine ih _ (h.meet ha (hns n List.mem_cons_self)) ((visited_meet s n).1 a ha) fun m hm => ?_
    exact hns m (List.mem_cons_of_mem _ hm)

theorem length_foldl (ns : List ν) : ∀ s : Search κ ν,
    (ns.foldl (Search.meet key) s).queue.length + s.visited.length =
      s.queue.length + (ns.foldl (Search.meet key) s).visited.length := by
  induction ns with
  | nil => exact fun _ => rfl
  | cons n ns ih =>
    intro s
    have hrest := ih (s.meet key n)
    have hone : (s.meet key n).queue.length + s.visited.length =
        s.queue.length + (s.meet key n).visited.length := by
      unfold Search.meet
      split
      · rfl
      · simp only [List.length_append, List.length_singleton]
        omega
    rw [List.foldl_cons]
    omega

theorem Explored.advance (h : Explored key next start (fun _ => False) s) {rest : List κ}
    (hqueue : s.queue = current :: rest) : Explored key next start (fun _ => False)
      ((next current).foldl (Search.meet key) { s with queue := rest }) := by
  have hcurrent : current ∈ s.visited := by
    refine h.queue current ?_
    rw [hqueue]
    exact List.mem_cons_self
  have hopen : Explored key next start (· = current) { s with queue := rest } := by
    refine ⟨h.visited, h.nodup, fun k hk => ?_, h.found, fun k hk => ?_⟩
    · refine h.queue k ?_
      rw [hqueue]
      exact List.mem_cons_of_mem _ hk
    · rcases h.closed k hk with hwaits | hfalse | hall
      · rw [hqueue, List.mem_cons] at hwaits
        rcases hwaits with rfl | hwaits
        · exact Or.inr (Or.inl rfl)
        · exact Or.inl hwaits
      · exact hfalse.elim
      · exact Or.inr (Or.inr hall)
  have hafter := hopen.foldl (next current) _ hcurrent fun _ hn => hn
  refine ⟨hafter.visited, hafter.nodup, hafter.queue, hafter.found, fun k hk => ?_⟩
  rcases hafter.closed k hk with hwaits | rfl | hall
  · exact Or.inl hwaits
  · exact Or.inr (Or.inr (visited_foldl (next k) _).2)
  · exact Or.inr (Or.inr hall)

/-- **Search.** Where the neighbours are in a finite universe, a search with enough fuel finds what
is reachable. -/
theorem run_found {neighbors : κ → Except String (List ν)}
    (hnext : ∀ k, neighbors k = .ok (next k)) (hU : ∀ k, ∀ n ∈ next k, key n ∈ U) (fuel : ℕ) :
    ∀ s : Search κ ν, Explored key next start (fun _ => False) s →
      s.queue.length + (U.length + 1) < fuel + s.visited.length →
      ∃ result, run key neighbors fuel s = .ok result ∧ Found key next start result := by
  induction fuel with
  | zero =>
    intro s h hfuel
    have hlen := h.length_le hU
    omega
  | succ fuel ih =>
    intro s h hfuel
    rw [run]
    cases hqueue : s.queue with
    | nil => exact ⟨s.result, rfl, h.finish hqueue⟩
    | cons current rest =>
      have hlength := @length_foldl _ _ key _ (next current) { s with queue := rest }
      rw [hqueue, List.length_cons] at hfuel
      dsimp only at hlength
      obtain ⟨result, hrun, hfound⟩ := ih _ (h.advance hqueue) (by omega)
      refine ⟨result, ?_, hfound⟩
      dsimp only
      rw [hnext]
      exact hrun

end Steps

end Search

end OpenObs.Foundation
