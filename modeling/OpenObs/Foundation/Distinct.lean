import Mathlib.Data.List.Induction
import Mathlib.Data.List.Nodup

/-!
# Lists without repetitions

A `Set` of the source is the list of its members in the order they were added; `eraseDups` is
the set made from a list.
-/

namespace OpenObs.Foundation

variable {α : Type} [DecidableEq α] {xs : List α} {a b : α}

/-- `Set.add`. -/
def addToSet (a : α) (xs : List α) : List α := if a ∈ xs then xs else xs ++ [a]

theorem mem_addToSet : b ∈ addToSet a xs ↔ b ∈ xs ∨ b = a := by
  unfold addToSet
  split
  next h =>
    refine ⟨Or.inl, ?_⟩
    rintro (hmem | rfl)
    · exact hmem
    · exact h
  · simp

theorem nodup_addToSet (h : xs.Nodup) : (addToSet a xs).Nodup := by
  unfold addToSet
  split
  · exact h
  next hnew =>
    refine List.nodup_append.mpr ⟨h, List.nodup_singleton a, fun b hb c hc => ?_⟩
    rintro rfl
    rw [List.mem_singleton.mp hc] at hb
    exact hnew hb

theorem eraseDups_concat (xs : List α) (a : α) :
    (xs ++ [a]).eraseDups = addToSet a xs.eraseDups := by
  rw [List.eraseDups_append, addToSet]
  by_cases h : a ∈ xs
  · rw [if_pos (List.mem_eraseDups.mpr h)]
    simp [List.removeAll, h]
  · rw [if_neg fun hin => h (List.mem_eraseDups.mp hin)]
    simp [List.removeAll, h, List.eraseDups_cons]

theorem nodup_eraseDups (xs : List α) : xs.eraseDups.Nodup := by
  induction xs using List.reverseRecOn with
  | nil => exact List.nodup_nil
  | append_singleton xs a ih =>
    rw [eraseDups_concat]
    exact nodup_addToSet ih

end OpenObs.Foundation

/-!
# Calls that settle their key

A call is made for a key and brings what it draws itself. It settles its key: until something
takes that back, a further call for the key changes nothing. Where no call takes back what
another key settled, a run is the run of the first call for each key.
-/

namespace OpenObs.Foundation

def firsts {κ δ : Type} [DecidableEq κ] : List (κ × δ) → List (κ × δ)
  | [] => []
  | call :: calls => call :: (firsts calls).filter (·.1 ≠ call.1)

def callAll {κ δ σ : Type} (act : κ → δ → σ → σ) (calls : List (κ × δ)) (s : σ) : σ :=
  calls.foldl (fun s call => act call.1 call.2 s) s

structure Settling {κ δ σ : Type} (act : κ → δ → σ → σ) (Settled : κ → σ → Prop) : Prop where
  still : ∀ {k s} (d : δ), Settled k s → act k d s = s
  settles : ∀ k d s, Settled k (act k d s)
  kept : ∀ {k k' s} (d : δ), k ≠ k' → Settled k s → Settled k (act k' d s)

section Firsts

variable {κ δ : Type} [DecidableEq κ]

end Firsts

namespace Settling

variable {κ δ σ : Type} [DecidableEq κ] {act : κ → δ → σ → σ} {Settled : κ → σ → Prop}

theorem callAll_filter (h : Settling act Settled) {k : κ} :
    ∀ {calls : List (κ × δ)} {s : σ}, Settled k s →
      callAll act calls s = callAll act (calls.filter (·.1 ≠ k)) s
  | [], _, _ => rfl
  | (k', d) :: calls, s, hk => by
    by_cases hsame : k' = k
    · subst hsame
      rw [List.filter_cons_of_neg (by simp), ← callAll_filter h hk, callAll, List.foldl_cons,
        h.still d hk, callAll]
    · rw [List.filter_cons_of_pos (by simp [hsame]), callAll, List.foldl_cons]
      exact callAll_filter h (h.kept d (Ne.symm hsame) hk)

theorem callAll_firsts (h : Settling act Settled) :
    ∀ (calls : List (κ × δ)) (s : σ), callAll act calls s = callAll act (firsts calls) s
  | [], _ => rfl
  | (k, d) :: calls, s => by
    have hrest : callAll act calls (act k d s) =
        callAll act ((firsts calls).filter (·.1 ≠ k)) (act k d s) := by
      rw [callAll_firsts h calls, callAll_filter h (h.settles k d s)]
    exact hrest

end Settling

end OpenObs.Foundation
