import Mathlib.Data.List.Basic

/-!
# Machines

A machine takes one label after another; where it cannot take one, it stands still.
-/

namespace OpenObs.Foundation

section Machine

variable {σ L : Type} (step : σ → L → Option σ) (Ok : σ → L → Prop)

/-- The states reached from `s₀` by labels that all met `Ok`. -/
inductive Reaches (s₀ : σ) : σ → Prop
  | init : Reaches s₀ s₀
  | tail {s s' : σ} (l : L) : Reaches s₀ s → Ok s l → step s l = some s' → Reaches s₀ s'

def follow (s : σ) : List L → Option σ
  | [] => some s
  | l :: ls => (step s l).bind (follow · ls)

/-- Every label meets `Ok` where it is taken. -/
def FollowsOk (s : σ) : List L → Prop
  | [] => True
  | l :: ls => Ok s l ∧ ∀ s', step s l = some s' → FollowsOk s' ls

variable {step Ok} {s₀ s s' : σ}

theorem Reaches.invariant {I : σ → Prop} (h₀ : I s₀)
    (hstep : ∀ s l s', I s → Ok s l → step s l = some s' → I s') (h : Reaches step Ok s₀ s) :
    I s := by
  induction h with
  | init => exact h₀
  | tail l _ hok hn ih => exact hstep _ l _ ih hok hn

theorem Reaches.trans {t : σ} (h : Reaches step Ok s₀ s) (h' : Reaches step Ok s t) :
    Reaches step Ok s₀ t := by
  induction h' with
  | init => exact h
  | tail l _ hok hn ih => exact ih.tail l hok hn

theorem Reaches.mono {Ok' : σ → L → Prop} (hok : ∀ s l, Ok s l → Ok' s l)
    (h : Reaches step Ok s₀ s) : Reaches step Ok' s₀ s := by
  induction h with
  | init => exact .init
  | tail l _ hl hn ih => exact ih.tail l (hok _ _ hl) hn

theorem Reaches.of_follow {ls : List L} : ∀ {s s' : σ}, Reaches step Ok s₀ s →
    FollowsOk step Ok s ls → follow step s ls = some s' → Reaches step Ok s₀ s' := by
  induction ls with
  | nil =>
    intro s s' h _ hfollow
    cases hfollow
    exact h
  | cons l ls ih =>
    intro s s' h hok hfollow
    obtain ⟨t, ht, hrest⟩ := Option.bind_eq_some_iff.mp hfollow
    exact ih (h.tail l hok.1 ht) (hok.2 t ht) hrest

theorem followsOk_of_forall (hok : ∀ s l, Ok s l) (ls : List L) : ∀ s, FollowsOk step Ok s ls := by
  induction ls with
  | nil => exact fun _ => trivial
  | cons l ls ih => exact fun s => ⟨hok s l, fun s' _ => ih s'⟩

end Machine

/-! ## States that are lists

What is at a place once something was added, or once the place of something was taken. -/

theorem getElem?_append_cases {α : Type} {xs : List α} {x y : α} {j : ℕ}
    (h : (xs ++ [x])[j]? = some y) : xs[j]? = some y ∨ y = x := by
  rw [List.getElem?_append] at h
  split at h
  · exact Or.inl h
  · exact Or.inr (List.mem_singleton.mp (List.mem_of_getElem? h))

theorem getElem?_set_cases {α : Type} {xs : List α} {x y : α} {i j : ℕ}
    (h : (xs.set i x)[j]? = some y) : (j = i ∧ y = x) ∨ (j ≠ i ∧ xs[j]? = some y) := by
  by_cases hij : i = j
  · subst hij
    have hlen : i < (xs.set i x).length := (List.getElem?_eq_some_iff.mp h).1
    rw [List.getElem?_set_self (by simpa using hlen)] at h
    exact Or.inl ⟨rfl, (Option.some.inj h).symm⟩
  · rw [List.getElem?_set_ne hij] at h
    exact Or.inr ⟨fun heq => hij heq.symm, h⟩

end OpenObs.Foundation

/-!
# Loops

A `while` loop by its iterations: each one returns, or hands the state to the
next one. A loop whose iterations bring a measure down returns; a loop that
entered a set of states its iterations do not leave never does.
-/

namespace OpenObs.Foundation

inductive Turn (σ β : Type) : Type where
  | returned (b : β)
  | again (s : σ)

def Turn.next? {σ β : Type} : Turn σ β → Option σ
  | .returned _ => none
  | .again s => some s

@[simp] theorem Turn.next?_eq_some {σ β : Type} {t : Turn σ β} {s : σ} :
    t.next? = some s ↔ t = .again s := by
  cases t <;> simp [Turn.next?]

section Loop

variable {σ β : Type} (iterate : σ → Turn σ β)

abbrev Visits (s₀ : σ) : σ → Prop :=
  Reaches (fun s (_ : Unit) => (iterate s).next?) (fun _ _ => True) s₀

def loop : ℕ → σ → Option β
  | 0, _ => none
  | fuel + 1, s =>
    match iterate s with
    | .returned b => some b
    | .again s' => loop fuel s'

def Returns (s : σ) : Prop := ∃ fuel b, loop iterate fuel s = some b

variable {iterate} {s₀ s s' : σ} {b : β}

theorem loop_mono {m n : ℕ} (hmn : m ≤ n) (h : loop iterate m s = some b) :
    loop iterate n s = some b := by
  induction m generalizing n s with
  | zero => cases h
  | succ m ih =>
    obtain ⟨n, rfl⟩ : ∃ k, n = k + 1 := ⟨n - 1, by omega⟩
    rw [loop] at h ⊢
    cases hs : iterate s with
    | returned b' => rwa [hs] at h
    | again s' =>
      rw [hs] at h
      exact ih (Nat.le_of_succ_le_succ hmn) h

theorem loop_again {fuel : ℕ} (hs : iterate s = .again s') (h : loop iterate fuel s' = some b) :
    loop iterate (fuel + 1) s = some b := by
  rw [loop, hs]
  exact h

theorem Visits.next (h : Visits iterate s₀ s) (hs : iterate s = .again s') :
    Visits iterate s₀ s' :=
  h.tail () trivial (Turn.next?_eq_some.mpr hs)

theorem Visits.invariant {I : σ → Prop} (h₀ : I s₀)
    (hstep : ∀ s s', I s → iterate s = .again s' → I s') (h : Visits iterate s₀ s) : I s :=
  Reaches.invariant h₀ (fun s _ s' hs _ hn => hstep s s' hs (Turn.next?_eq_some.mp hn)) h

theorem returns_of_descending (μ : σ → ℕ)
    (h : ∀ s, Visits iterate s₀ s → ∀ s', iterate s = .again s' → μ s' < μ s) :
    Returns iterate s₀ := by
  have enough : ∀ fuel s, Visits iterate s₀ s → μ s < fuel → ∃ b, loop iterate fuel s = some b := by
    intro fuel
    induction fuel with
    | zero => exact fun s _ hlt => absurd hlt (Nat.not_lt_zero _)
    | succ fuel ih =>
      intro s hv hlt
      cases hs : iterate s with
      | returned b => exact ⟨b, by simp [loop, hs]⟩
      | again s' =>
        have hdown : μ s' < μ s := h s hv s' hs
        obtain ⟨b, hb⟩ := ih s' (hv.next hs) (by omega)
        exact ⟨b, by simpa [loop, hs] using hb⟩
  obtain ⟨b, hb⟩ := enough (μ s₀ + 1) s₀ .init (Nat.lt_succ_self _)
  exact ⟨_, b, hb⟩

theorem not_returns_of_trap {T : σ → Prop}
    (htrap : ∀ s, T s → ∃ s', iterate s = .again s' ∧ T s') (hs : T s₀) :
    ¬ Returns iterate s₀ := by
  rintro ⟨fuel, b, hb⟩
  induction fuel generalizing s₀ with
  | zero => exact absurd hb (by simp [loop])
  | succ fuel ih =>
    obtain ⟨s', hs', hT⟩ := htrap s₀ hs
    apply ih hT
    simpa [loop, hs'] using hb

end Loop

end OpenObs.Foundation
