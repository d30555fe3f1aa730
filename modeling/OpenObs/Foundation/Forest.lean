import Mathlib.Data.List.Chain
import Mathlib.Data.List.Nodup
import Mathlib.Data.List.Perm.Subperm
import Mathlib.Data.Nat.Find

/-!
# Forests given by parent links

A partial function `parent` on any type. `climb n x` is the node `n` links above `x`; a chain of `n`
nodes that starts at `x` ends there when `climb n x = none`.
-/

namespace OpenObs.Foundation.Forest

variable {α : Type} {parent parent' : α → Option α}

/-- The node `n` links above. -/
def climb (parent : α → Option α) : ℕ → α → Option α
  | 0, x => some x
  | n + 1, x => (parent x).bind (climb parent n)

/-- The nodes above, nearest first, at most `n` of them. -/
def ups (parent : α → Option α) : ℕ → α → List α
  | 0, _ => []
  | n + 1, x =>
    match parent x with
    | none => []
    | some y => y :: ups parent n y

/-- `y` is strictly above `x`. -/
def Above (parent : α → Option α) (x y : α) : Prop := ∃ n, climb parent (n + 1) x = some y

/-- `x` is in the subtree of `y`. -/
def Under (parent : α → Option α) (x y : α) : Prop := ∃ n, climb parent n x = some y

def Acyclic (parent : α → Option α) : Prop := ∀ x, ¬ Above parent x x

/-! ## Climbing -/

theorem climb_zero {x : α} : climb parent 0 x = some x := rfl

theorem climb_succ {n : ℕ} {x : α} : climb parent (n + 1) x = (parent x).bind (climb parent n) :=
  rfl

theorem under_iff_eq_or_above {x y : α} : Under parent x y ↔ x = y ∨ Above parent x y := by
  constructor
  · rintro ⟨n, hn⟩
    cases n with
    | zero => exact Or.inl (Option.some.inj hn)
    | succ n => exact Or.inr ⟨n, hn⟩
  · rintro (rfl | ⟨n, hn⟩)
    · exact ⟨0, climb_zero⟩
    · exact ⟨n + 1, hn⟩

theorem climb_one {x : α} : climb parent 1 x = parent x := by
  rw [climb_succ]
  cases parent x <;> rfl

theorem climb_add {m n : ℕ} : ∀ {x : α},
    climb parent (m + n) x = (climb parent m x).bind (climb parent n) := by
  induction m with
  | zero =>
    intro x
    rw [Nat.zero_add]
    rfl
  | succ m ih =>
    intro x
    rw [Nat.add_right_comm, climb_succ, climb_succ]
    cases parent x with
    | none => rfl
    | some y => exact ih

theorem climb_none_of_le {m n : ℕ} (hmn : m ≤ n) {x : α} (h : climb parent m x = none) :
    climb parent n x = none := by
  obtain ⟨k, rfl⟩ := Nat.exists_eq_add_of_le hmn
  rw [climb_add, h]
  rfl

theorem climb_succ_last {n : ℕ} {x y : α} (h : climb parent (n + 1) x = some y) :
    ∃ z, climb parent n x = some z ∧ parent z = some y := by
  rw [climb_add] at h
  obtain ⟨z, hz, hlast⟩ := Option.bind_eq_some_iff.mp h
  rw [climb_one] at hlast
  exact ⟨z, hz, hlast⟩

theorem climb_of_sub (hsub : ∀ x y, parent' x = some y → parent x = some y) {n : ℕ} :
    ∀ {x y : α}, climb parent' n x = some y → climb parent n x = some y := by
  induction n with
  | zero => exact fun h => h
  | succ n ih =>
    intro x y h
    rw [climb_succ] at h ⊢
    obtain ⟨z, hz, hclimb⟩ := Option.bind_eq_some_iff.mp h
    rw [hsub x z hz]
    exact ih hclimb

theorem not_above_of_climb_none {x : α} {m : ℕ} (h : climb parent m x = none) :
    ¬ Above parent x x := by
  rintro ⟨n, hn⟩
  have hloop (k : ℕ) : climb parent (k * (n + 1)) x = some x := by
    induction k with
    | zero => rw [Nat.zero_mul, climb_zero]
    | succ k ih =>
      rw [Nat.succ_mul, climb_add, ih]
      exact hn
  have hle : m ≤ m * (n + 1) := Nat.le_mul_of_pos_right m (Nat.succ_pos n)
  have hnone := climb_none_of_le hle h
  rw [hloop m] at hnone
  cases hnone

theorem acyclic_of_climb_none (h : ∀ x, ∃ n, climb parent n x = none) : Acyclic parent := by
  intro x
  obtain ⟨n, hn⟩ := h x
  exact not_above_of_climb_none hn

theorem exists_room {bound : ℕ} (h : ∀ x, climb parent bound x = none) {a p : α}
    (hlink : parent a = some p) :
    ∃ m, climb parent m p = none ∧ ∀ d x, climb parent d x = some a → d + 1 + m ≤ bound := by
  classical
  have hex : ∃ m, climb parent m p = none := ⟨bound, h p⟩
  refine ⟨Nat.find hex, Nat.find_spec hex, fun d x hd => ?_⟩
  by_contra hgt
  cases hm : Nat.find hex with
  | zero =>
    have hzero := Nat.find_spec hex
    rw [hm] at hzero
    cases hzero
  | succ m =>
    -- one link before the end of the way from `p`, the way from `x` is still going on
    have hmin : climb parent m p ≠ none := Nat.find_min hex (by omega)
    have hthrough : climb parent (d + (m + 1)) x = climb parent m p := by
      rw [climb_add, hd]
      show climb parent (m + 1) a = _
      rw [climb_succ, hlink]
      rfl
    apply hmin
    rw [← hthrough]
    exact climb_none_of_le (by omega) (h x)

theorem mem_ups {n : ℕ} : ∀ {x y : α},
    y ∈ ups parent n x ↔ ∃ k < n, climb parent (k + 1) x = some y := by
  induction n with
  | zero =>
    intro x y
    constructor
    · intro h
      cases h
    · rintro ⟨k, hk, -⟩
      omega
  | succ n ih =>
    intro x y
    rw [ups]
    cases hx : parent x with
    | none =>
      constructor
      · intro h
        cases h
      · rintro ⟨k, -, hk⟩
        rw [climb_succ, hx] at hk
        cases hk
    | some z =>
      rw [List.mem_cons, ih]
      constructor
      · rintro (rfl | ⟨k, hk, hclimb⟩)
        · exact ⟨0, Nat.succ_pos n, by rw [climb_one, hx]⟩
        · refine ⟨k + 1, Nat.succ_lt_succ hk, ?_⟩
          rw [climb_succ, hx]
          exact hclimb
      · rintro ⟨k, hk, hclimb⟩
        rw [climb_succ, hx] at hclimb
        cases k with
        | zero =>
          left
          exact (Option.some.inj hclimb).symm
        | succ k => exact Or.inr ⟨k, Nat.lt_of_succ_lt_succ hk, hclimb⟩

theorem mem_ups_of_climb_none {n : ℕ} {x y : α} (h : climb parent (n + 1) x = none) :
    y ∈ ups parent n x ↔ Above parent x y := by
  rw [mem_ups]
  constructor
  · rintro ⟨k, -, hk⟩
    exact ⟨k, hk⟩
  · rintro ⟨k, hk⟩
    refine ⟨k, ?_, hk⟩
    by_contra hle
    have hnone := climb_none_of_le (Nat.succ_le_succ (Nat.le_of_not_lt hle)) h
    rw [hk] at hnone
    cases hnone

theorem climb_of_chain {chain : List α} : ∀ {x : α},
    (x :: chain).IsChain (fun a b => parent a = some b) → climb parent chain.length x ≠ none := by
  induction chain with
  | nil =>
    intro x _ h
    cases h
  | cons y chain ih =>
    intro x h
    obtain ⟨hlink, hchain⟩ := List.isChain_cons_cons.mp h
    rw [List.length_cons, climb_succ, hlink]
    exact ih hchain

theorem exists_chain {n : ℕ} : ∀ {x : α}, climb parent n x ≠ none →
    ∃ chain : List α, chain.head? = some x ∧ chain.length = n + 1 ∧
      chain.IsChain fun a b => parent a = some b := by
  induction n with
  | zero => exact fun {x} _ => ⟨[x], rfl, rfl, List.isChain_singleton x⟩
  | succ n ih =>
    intro x h
    rw [climb_succ] at h
    cases hx : parent x with
    | none =>
      rw [hx] at h
      exact absurd rfl h
    | some y =>
      rw [hx] at h
      obtain ⟨chain, hhead, hlen, hchain⟩ := ih h
      refine ⟨x :: chain, rfl, by rw [List.length_cons, hlen], ?_⟩
      refine List.isChain_cons.mpr ⟨fun z hz => ?_, hchain⟩
      rw [hhead] at hz
      cases hz
      exact hx

theorem above_iff_transGen {x y : α} :
    Above parent x y ↔ Relation.TransGen (fun a b => parent a = some b) x y := by
  constructor
  · rintro ⟨n, hn⟩
    induction n generalizing x with
    | zero => exact .single (by rwa [climb_one] at hn)
    | succ n ih =>
      rw [climb_succ] at hn
      obtain ⟨z, hz, hclimb⟩ := Option.bind_eq_some_iff.mp hn
      exact .head hz (ih hclimb)
  · intro h
    induction h with
    | single h => exact ⟨0, by rwa [climb_one]⟩
    | tail _ hlink ih =>
      obtain ⟨n, hn⟩ := ih
      refine ⟨n + 1, ?_⟩
      rw [show n + 1 + 1 = (n + 1) + 1 from rfl, climb_add, hn]
      show climb parent 1 _ = _
      rw [climb_one, hlink]

/-! ## Moving a node -/

section Move

variable [DecidableEq α] {a : α} {v : Option α}

theorem climb_update_of_avoid {n : ℕ} : ∀ {x : α}, (∀ k < n, climb parent k x ≠ some a) →
    climb (Function.update parent a v) n x = climb parent n x := by
  induction n with
  | zero => exact fun _ => rfl
  | succ n ih =>
    intro x havoid
    have hx : x ≠ a := fun h => havoid 0 (Nat.succ_pos n) (by rw [climb_zero, h])
    rw [climb_succ, climb_succ, Function.update_of_ne hx]
    cases hp : parent x with
    | none => rfl
    | some y =>
      refine ih fun k hk hreach => havoid (k + 1) (Nat.succ_lt_succ hk) ?_
      rw [climb_succ, hp]
      exact hreach

theorem climb_update_through {d n : ℕ} {x : α} (hd : climb parent d x = some a)
    (hfirst : ∀ k < d, climb parent k x ≠ some a) :
    climb (Function.update parent a v) (d + 1 + n) x =
      v.bind (climb (Function.update parent a v) n) := by
  rw [Nat.add_assoc, climb_add, climb_update_of_avoid hfirst, hd]
  show climb _ (1 + n) a = _
  rw [Nat.add_comm, climb_succ, Function.update_self]

theorem exists_first {x y : α} {n : ℕ} (h : climb parent n x = some y) :
    ∃ d ≤ n, climb parent d x = some y ∧ ∀ k < d, climb parent k x ≠ some y := by
  classical
  have hex : ∃ d, climb parent d x = some y := ⟨n, h⟩
  exact ⟨Nat.find hex, Nat.find_min' hex h, Nat.find_spec hex, fun k hk => Nat.find_min hex hk⟩

/-- A bound on the length of the ways up survives a move, where the new way is short
enough for everything that is moved with the node. -/
theorem climb_update_none {bound : ℕ} (h : ∀ x, climb parent bound x = none)
    (hv : ∀ p, v = some p → (∀ n, climb parent n p ≠ some a) ∧
      ∃ m, climb parent m p = none ∧ ∀ d x, climb parent d x = some a → d + 1 + m ≤ bound)
    (x : α) : climb (Function.update parent a v) bound x = none := by
  by_cases hpass : ∃ n, climb parent n x = some a
  · obtain ⟨n, hn⟩ := hpass
    obtain ⟨d, -, hd, hfirst⟩ := exists_first hn
    cases hvp : v with
    | none =>
      have hlt : d + 1 ≤ bound := by
        by_contra hge
        have hnone := climb_none_of_le (Nat.le_of_lt_succ (Nat.lt_of_not_le hge)) (h x)
        rw [hd] at hnone
        cases hnone
      refine climb_none_of_le hlt ?_
      rw [← Nat.add_zero (d + 1), climb_update_through hd hfirst]
      rfl
    | some p =>
      obtain ⟨havoid, m, hm, hbound⟩ := hv p hvp
      refine climb_none_of_le (hbound d x hd) ?_
      rw [climb_update_through hd hfirst]
      show climb _ m p = none
      rw [climb_update_of_avoid fun k _ => havoid k, hm]
  · rw [climb_update_of_avoid fun k _ hk => hpass ⟨k, hk⟩, h x]

theorem acyclic_update (h : Acyclic parent)
    (hv : ∀ p, v = some p → ∀ n, climb parent n p ≠ some a) :
    Acyclic (Function.update parent a v) := by
  rintro x ⟨n, hn⟩
  by_cases hpass : ∃ k, climb (Function.update parent a v) k x = some a
  · -- the cycle passes the moved node, so that node is above itself
    obtain ⟨k, hk⟩ := hpass
    have hcycle : climb (Function.update parent a v) (n + 1) a = some a := by
      have hcomm : climb (Function.update parent a v) (k + (n + 1)) x =
          climb (Function.update parent a v) (n + 1 + k) x := by rw [Nat.add_comm]
      rw [climb_add, climb_add, hk, hn] at hcomm
      exact hcomm.trans hk
    rw [climb_succ, Function.update_self] at hcycle
    cases hvp : v with
    | none =>
      rw [hvp] at hcycle
      cases hcycle
    | some p =>
      rw [hvp] at hcycle
      have hold : climb (Function.update parent a (some p)) n p = climb parent n p :=
        climb_update_of_avoid fun k _ => hv p hvp k
      exact hv p hvp n (hold.symm.trans hcycle)
  · -- the links of the cycle are old ones
    have hback : Function.update (Function.update parent a v) a (parent a) = parent := by
      rw [Function.update_idem, Function.update_eq_self]
    have hold : climb parent (n + 1) x = climb (Function.update parent a v) (n + 1) x := by
      have heq := @climb_update_of_avoid α (Function.update parent a v) _ a (parent a) (n + 1) x
        fun k _ hk => hpass ⟨k, hk⟩
      rw [hback] at heq
      exact heq
    exact h x ⟨n, hold.trans hn⟩

end Move

/-! ## Walks

Somebody walks up from `p` to see whether `a` is on the way, and `b` is moved to `q`
meanwhile. -/

section Walk

variable [DecidableEq α] {a b p q : α} {v : Option α}

theorem not_under_of_acyclic (h : Acyclic (Function.update parent b (some q))) :
    ¬ Under parent q b := by
  rintro ⟨n, hn⟩
  obtain ⟨d, -, hd, hfirst⟩ := exists_first hn
  apply h b
  refine ⟨d, ?_⟩
  rw [climb_succ, Function.update_self]
  show climb _ d q = _
  rw [climb_update_of_avoid hfirst, hd]

theorem under_update (h : Acyclic (Function.update parent b v)) {x y : α}
    (hxy : Under (Function.update parent b v) x y) :
    Under parent x y ∨ Under parent x b ∧ ∃ q, v = some q ∧ Under parent q y := by
  obtain ⟨n, hn⟩ := hxy
  by_cases hpass : ∃ d < n, climb parent d x = some b
  · right
    obtain ⟨d', hlt', hd'⟩ := hpass
    obtain ⟨d, hle, hd, hfirst⟩ := exists_first hd'
    have hsplit : n = d + 1 + (n - d - 1) := by omega
    rw [hsplit, climb_update_through hd hfirst] at hn
    obtain ⟨q, rfl, hq⟩ := Option.bind_eq_some_iff.mp hn
    refine ⟨⟨d, hd⟩, q, rfl, n - d - 1, ?_⟩
    rw [← hq, climb_update_of_avoid fun k _ hk => not_under_of_acyclic h ⟨k, hk⟩]
  · left
    refine ⟨n, ?_⟩
    rw [← hn, climb_update_of_avoid fun k hk hkb => hpass ⟨k, hk, hkb⟩]

/-- The walk has come to `c` without meeting `a`, and goes on at `next`. -/
def Walking (parent : α → Option α) (a p c : α) (next : Option α) : Prop :=
  ∃ k, climb parent k p = some c ∧ (∀ j ≤ k, climb parent j p ≠ some a) ∧ parent c = next

/-- What a walk in progress is after the move: still one, or of a node that is not under
`a`, or on the old way to `a`. -/
theorem Walking.update (hacyclic : Acyclic parent) (h : Acyclic (Function.update parent b v))
    (hcross : ¬ (Under parent p b ∧ (∃ q, v = some q ∧ Under parent q a) ∧ ¬ Under parent p a))
    {c : α} {next : Option α} (hwalk : Walking parent a p c next) :
    Walking (Function.update parent b v) a p c next ∨
      ¬ Under (Function.update parent b v) p a ∨
      ∃ z, next = some z ∧ Under (Function.update parent b v) z a := by
  obtain ⟨k, hk, havoid, hnext⟩ := hwalk
  by_cases hpass : ∃ j ≤ k, climb parent j p = some b
  · right
    obtain ⟨j, hjk, hj⟩ := hpass
    by_cases ha : Under parent p a
    · -- the node `a` is ahead, above the moved one
      right
      obtain ⟨n, hn⟩ := ha
      have hkn : k < n := by
        by_contra hle
        exact havoid n (Nat.le_of_not_lt hle) hn
      have hahead : climb parent (n - k - 1 + 1) c = some a := by
        have hsplit : n = k + (n - k - 1 + 1) := by omega
        rw [hsplit, climb_add, hk] at hn
        exact hn
      rw [climb_succ, hnext] at hahead
      obtain ⟨z, rfl, hz⟩ := Option.bind_eq_some_iff.mp hahead
      refine ⟨z, rfl, n - k - 1, ?_⟩
      rw [climb_update_of_avoid, hz]
      intro i _ hi
      -- otherwise the moved node was above itself
      apply hacyclic b
      refine ⟨k - j + i, ?_⟩
      have hback : climb parent (k - j) b = some c := by
        have hsplit : k = j + (k - j) := by omega
        rw [hsplit, climb_add, hj] at hk
        exact hk
      rw [show k - j + i + 1 = k - j + (i + 1) from rfl, climb_add, hback]
      show climb parent (i + 1) c = _
      rw [climb_succ, hnext]
      exact hi
    · left
      intro hunder
      rcases under_update h hunder with hold | ⟨hpb, hqa⟩
      · exact ha hold
      · exact hcross ⟨hpb, hqa, ha⟩
  · left
    have hsame (j : ℕ) (hj : j ≤ k) :
        climb (Function.update parent b v) j p = climb parent j p :=
      climb_update_of_avoid fun i hi hib => hpass ⟨i, by omega, hib⟩
    refine ⟨k, by rw [hsame k (Nat.le_refl k), hk], fun j hj => by rw [hsame j hj]; exact havoid j hj,
      ?_⟩
    have hcb : c ≠ b := fun hcb => hpass ⟨k, Nat.le_refl k, by rw [hk, hcb]⟩
    rw [Function.update_of_ne hcb, hnext]

end Walk

/-! ## Finite forests -/

theorem climb_injective (h : Acyclic parent) {x z : α} {i j : ℕ} (hi : climb parent i x = some z)
    (hj : climb parent j x = some z) : i = j := by
  wlog hle : i ≤ j generalizing i j
  · exact (this hj hi (Nat.le_of_not_le hle)).symm
  obtain ⟨d, rfl⟩ := Nat.exists_eq_add_of_le hle
  cases d with
  | zero => rfl
  | succ d =>
    rw [climb_add, hi] at hj
    exact absurd ⟨d, hj⟩ (h z)

theorem climb_none_of_acyclic (h : Acyclic parent) {nodes : List α}
    (hnodes : ∀ x y, parent x = some y → x ∈ nodes) (x : α) :
    climb parent (nodes.length + 1) x = none := by
  by_contra hgoes
  have hlinked (k : ℕ) (hk : k ≤ nodes.length) : ∃ z ∈ nodes, climb parent k x = some z := by
    cases hz : climb parent k x with
    | none => exact absurd (climb_none_of_le (by omega) hz) hgoes
    | some z =>
      refine ⟨z, ?_, rfl⟩
      cases hlink : parent z with
      | some y => exact hnodes z y hlink
      | none =>
        have hend : climb parent (k + 1) x = none := by
          rw [climb_add, hz]
          show climb parent 1 z = none
          rw [climb_one, hlink]
        exact absurd (climb_none_of_le (by omega) hend) hgoes
  have hsub : ((List.range (nodes.length + 1)).map fun k => climb parent k x) ⊆ nodes.map some := by
    intro z hz
    obtain ⟨k, hk, rfl⟩ := List.mem_map.mp hz
    obtain ⟨z, hz, hclimb⟩ := hlinked k (Nat.lt_succ_iff.mp (List.mem_range.mp hk))
    rw [hclimb]
    exact List.mem_map_of_mem hz
  have hnodup : ((List.range (nodes.length + 1)).map fun k => climb parent k x).Nodup := by
    refine List.Nodup.map_on (fun i hi j _ hij => ?_) List.nodup_range
    obtain ⟨z, -, hz⟩ := hlinked i (Nat.lt_succ_iff.mp (List.mem_range.mp hi))
    exact climb_injective h hz (hij ▸ hz)
  have hlen := (List.subperm_of_subset hnodup hsub).length_le
  rw [List.length_map, List.length_map, List.length_range] at hlen
  omega

end OpenObs.Foundation.Forest
