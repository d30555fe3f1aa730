import Mathlib.Algebra.BigOperators.Group.List.Basic
import Mathlib.Algebra.Order.Group.Defs
import Mathlib.Data.List.Sort

/-!
# Differences of a cumulative column

A column of running totals is taken apart into its increments; an increment below zero is taken for
zero. Where the column does not fall, the increments sum to its last total.
-/

namespace OpenObs.Foundation

/-! ## Increments -/

section Increments

variable {α : Type} [AddCommGroup α] [LinearOrder α] {prev : α} {cs : List α}

def increments (prev : α) : List α → List α
  | [] => []
  | c :: cs => max 0 (c - prev) :: increments c cs

@[simp] theorem increments_nil : increments prev [] = [] := rfl

@[simp] theorem increments_cons {c : α} :
    increments prev (c :: cs) = max 0 (c - prev) :: increments c cs := rfl

theorem increments_nonneg : ∀ {prev : α} {cs : List α}, ∀ v ∈ increments prev cs, 0 ≤ v
  | _, [], _, hv => absurd hv List.not_mem_nil
  | prev, c :: cs, v, hv => by
    rcases List.mem_cons.mp hv with rfl | hv
    · exact le_max_left 0 (c - prev)
    · exact increments_nonneg v hv

/-- **The increments telescope.** -/
theorem sum_increments [IsOrderedAddMonoid α] : ∀ {prev : α} {cs : List α},
    (prev :: cs).IsChain (· ≤ ·) → prev + (increments prev cs).sum = cs.getLastD prev
  | _, [], _ => by simp
  | prev, c :: cs, h => by
    have hstep : max 0 (c - prev) = c - prev := max_eq_right (sub_nonneg.mpr h.rel)
    rw [increments_cons, List.sum_cons, hstep, ← add_assoc, add_sub_cancel,
      sum_increments h.of_cons, List.getLastD_cons]

end Increments

/-! ## Sorting -/

section Sorting

variable {α : Type} {r : α → α → Prop} [DecidableRel r]

theorem pairwise_orderedInsert {a : α} : ∀ {l : List α}, (∀ b ∈ l, r a b ∨ r b a) →
    (∀ b ∈ l, ∀ c ∈ l, r a b → r b c → r a c) → l.Pairwise r → (l.orderedInsert r a).Pairwise r
  | [], _, _, _ => List.pairwise_singleton r a
  | b :: l, htotal, htrans, h => by
    have hhead : ∀ c ∈ l, r b c := fun _ hc => List.rel_of_pairwise_cons h hc
    rw [List.orderedInsert_cons]
    split
    next hab =>
      refine List.pairwise_cons.mpr ⟨fun c hc => ?_, h⟩
      rcases List.mem_cons.mp hc with rfl | hc
      · exact hab
      · exact htrans b List.mem_cons_self c (List.mem_cons_of_mem _ hc) hab (hhead c hc)
    next hab =>
      have hrest := pairwise_orderedInsert (fun c hc => htotal c (List.mem_cons_of_mem _ hc))
        (fun c hc d hd => htrans c (List.mem_cons_of_mem _ hc) d (List.mem_cons_of_mem _ hd))
        h.of_cons
      refine List.pairwise_cons.mpr ⟨fun c hc => ?_, hrest⟩
      rcases (List.mem_orderedInsert r).mp hc with rfl | hc
      · exact (htotal b List.mem_cons_self).resolve_left hab
      · exact hhead c hc

theorem pairwise_insertionSort : ∀ {l : List α}, (∀ a ∈ l, ∀ b ∈ l, r a b ∨ r b a) →
    (∀ a ∈ l, ∀ b ∈ l, ∀ c ∈ l, r a b → r b c → r a c) → (l.insertionSort r).Pairwise r
  | [], _, _ => List.Pairwise.nil
  | a :: l, htotal, htrans => by
    have hin : ∀ {b}, b ∈ l.insertionSort r → b ∈ a :: l := fun hb =>
      List.mem_cons_of_mem a ((List.mem_insertionSort r).mp hb)
    have hrest := pairwise_insertionSort
      (fun b hb c hc => htotal b (List.mem_cons_of_mem _ hb) c (List.mem_cons_of_mem _ hc))
      (fun b hb c hc d hd => htrans b (List.mem_cons_of_mem _ hb) c (List.mem_cons_of_mem _ hc)
        d (List.mem_cons_of_mem _ hd))
    rw [List.insertionSort_cons]
    exact pairwise_orderedInsert (fun b hb => htotal a List.mem_cons_self b (hin hb))
      (fun b hb c hc => htrans a List.mem_cons_self b (hin hb) c (hin hc)) hrest

end Sorting

/-! ## What stands under one key -/

section Rows

variable {κ β : Type} [DecidableEq κ] {key : β → κ} {row : κ → List β} {k : κ}

theorem filter_rows (hkey : ∀ k, ∀ b ∈ row k, key b = k) : ∀ {ks : List κ}, ks.Nodup →
    (ks.flatMap row).filter (fun b => key b = k) = if k ∈ ks then row k else []
  | [], _ => by simp
  | k' :: ks, hnodup => by
    have hrest := filter_rows hkey (List.nodup_cons.mp hnodup).2
    rw [List.flatMap_cons, List.filter_append, hrest]
    by_cases heq : k = k'
    · subst heq
      have hall : (row k).filter (fun b => key b = k) = row k :=
        List.filter_eq_self.mpr fun b hb => by simp [hkey k b hb]
      rw [hall, if_neg (List.nodup_cons.mp hnodup).1, if_pos List.mem_cons_self,
        List.append_nil]
    · have hnone : (row k').filter (fun b => key b = k) = [] :=
        List.filter_eq_nil_iff.mpr fun b hb => by simp [hkey k' b hb, Ne.symm heq]
      rw [hnone, List.nil_append]
      simp [heq]

end Rows

end OpenObs.Foundation
