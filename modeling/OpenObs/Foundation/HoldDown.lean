import Mathlib.Data.Nat.Notation

/-!
# Hold-down

A switch that is fed verdicts, some of them missing. A positive verdict does not
switch it on at once: it has to stand for a while, without a negative one in
between. `phase` is the machine, `raised_iff` says of a whole history when it is
switched on.
-/

namespace OpenObs.Foundation.HoldDown

inductive Phase : Type where
  | quiet
  | pending (since : ℕ)
  | active
deriving DecidableEq

section Machine

variable (immediate : Bool) (due : ℕ → ℕ → Bool) (verdict : ℕ → Option Bool)

/-- `due j k`: at `k` a verdict that stands since `j` has stood long enough. -/
def step (k : ℕ) : Option Bool → Phase → Phase
  | none, ph => ph
  | some false, _ => .quiet
  | some true, .quiet => if immediate then .active else .pending k
  | some true, .pending j => if due j k then .active else .pending j
  | some true, .active => .active

def phase : ℕ → Phase
  | 0 => .quiet
  | k + 1 => step immediate due k (verdict k) (phase k)

end Machine

/-- Every verdict that is there from `j` to `k` is positive. -/
def Streak (verdict : ℕ → Option Bool) (j k : ℕ) : Prop :=
  ∀ i, j ≤ i → i ≤ k → verdict i ≠ some false

/-- The last verdict before `j`, if there is one, is negative. -/
def AfterFalse (verdict : ℕ → Option Bool) (j : ℕ) : Prop :=
  ∀ i, i < j → verdict i ≠ none → (∀ m, i < m → m < j → verdict m = none) →
    verdict i = some false

section Runs

variable {immediate : Bool} {due : ℕ → ℕ → Bool} {verdict : ℕ → Option Bool} {j k : ℕ}

theorem afterFalse_succ_none (h : verdict k = none) :
    AfterFalse verdict (k + 1) ↔ AfterFalse verdict k := by
  constructor
  · intro hafter i hi hsome hgap
    refine hafter i (by omega) hsome fun m him hmk => ?_
    by_cases hm : m = k
    · rw [hm, h]
    · exact hgap m him (by omega)
  · intro hafter i hi hsome hgap
    have hik : i ≠ k := fun heq => hsome (heq ▸ h)
    exact hafter i (by omega) hsome fun m him hmk => hgap m him (by omega)

theorem afterFalse_succ_some {b : Bool} (h : verdict k = some b) :
    AfterFalse verdict (k + 1) ↔ b = false := by
  constructor
  · intro hafter
    have hlast := hafter k (Nat.lt_succ_self k) (by simp [h]) fun m him hmk => by omega
    simpa [h] using hlast
  · rintro rfl i hi hsome hgap
    by_cases hik : i = k
    · rw [hik, h]
    · rw [hgap k (by omega) (Nat.lt_succ_self k)] at h
      cases h

theorem quiet_iff : ∀ k, phase immediate due verdict k = .quiet ↔ AfterFalse verdict k := by
  intro k
  induction k with
  | zero => exact ⟨fun _ i hi => absurd hi (Nat.not_lt_zero i), fun _ => rfl⟩
  | succ k ih =>
    rw [phase]
    cases hv : verdict k with
    | none => rw [afterFalse_succ_none hv, ← ih, step]
    | some b =>
      rw [afterFalse_succ_some hv]
      cases b with
      | false => simp [step]
      | true =>
        cases phase immediate due verdict k with
        | quiet => simp only [step]; split <;> simp
        | pending j => simp only [step]; split <;> simp
        | active => simp [step]

theorem pending_spec : ∀ k, phase immediate due verdict k = .pending j →
    immediate = false ∧ j < k ∧ verdict j = some true ∧ phase immediate due verdict j = .quiet ∧
      ∀ i, j ≤ i → i < k → verdict i ≠ some false := by
  intro k
  induction k with
  | zero =>
    intro h
    cases h
  | succ k ih =>
    intro h
    rw [phase] at h
    cases hv : verdict k with
    | none =>
      rw [hv, step] at h
      obtain ⟨himm, hjk, hj, hquiet, hall⟩ := ih h
      refine ⟨himm, by omega, hj, hquiet, fun i hji hik => ?_⟩
      by_cases hi : i = k
      · simp [hi, hv]
      · exact hall i hji (by omega)
    | some b =>
      rw [hv] at h
      cases b with
      | false => cases h
      | true =>
        cases hph : phase immediate due verdict k with
        | quiet =>
          rw [hph, step] at h
          split at h
          · cases h
          · rename_i himm
            cases h
            refine ⟨by simpa using himm, Nat.lt_succ_self j, hv, hph, fun i hji hij => ?_⟩
            rw [show i = j by omega, hv]
            simp
        | pending j' =>
          rw [hph, step] at h
          split at h
          · cases h
          · cases h
            obtain ⟨himm, hjk, hj, hquiet, hall⟩ := ih hph
            refine ⟨himm, by omega, hj, hquiet, fun i hji hik => ?_⟩
            by_cases hi : i = k
            · simp [hi, hv]
            · exact hall i hji (by omega)
        | active =>
          rw [hph] at h
          cases h

theorem Streak.begins (h : Streak verdict j k) (hjk : j ≤ k) (hsome : verdict j ≠ none) :
    verdict j = some true := by
  cases hv : verdict j with
  | none => exact absurd hv hsome
  | some b =>
    cases b with
    | false => exact absurd hv (h j (Nat.le_refl j) hjk)
    | true => rfl

theorem standing (himm : immediate = false) (hquiet : phase immediate due verdict j = .quiet)
    (hj : verdict j = some true) : ∀ k, j < k → (∀ i, j ≤ i → i < k → verdict i ≠ some false) →
      phase immediate due verdict k = .pending j ∨ phase immediate due verdict k = .active := by
  intro k
  induction k with
  | zero => exact fun h => absurd h (Nat.not_lt_zero j)
  | succ k ih =>
    intro hjk hall
    rw [phase]
    by_cases hk : k = j
    · rw [hk, hquiet, hj, step, himm]
      exact Or.inl rfl
    · have hbefore := ih (by omega) fun i hji hik => hall i hji (by omega)
      cases hv : verdict k with
      | none => exact hbefore
      | some b =>
        cases b with
        | false => exact absurd hv (hall k (by omega) (Nat.lt_succ_self k))
        | true =>
          rcases hbefore with h | h
          · rw [h, step]
            split
            · exact Or.inr rfl
            · exact Or.inl rfl
          · rw [h]
            exact Or.inr rfl

/-- The machine is switched on at `k`. -/
def Raised (immediate : Bool) (due : ℕ → ℕ → Bool) (verdict : ℕ → Option Bool) (k : ℕ) : Prop :=
  phase immediate due verdict k ≠ .active ∧ phase immediate due verdict (k + 1) = .active

/-- **When the machine is switched on.** -/
theorem raised_iff : Raised immediate due verdict k ↔
    verdict k = some true ∧ phase immediate due verdict k ≠ .active ∧
      (immediate = true ∨ ∃ j, j < k ∧ verdict j ≠ none ∧ Streak verdict j k ∧
        phase immediate due verdict j ≠ .active ∧ AfterFalse verdict j ∧ due j k = true) := by
  constructor
  · rintro ⟨hoff, hon⟩
    rw [phase] at hon
    cases hv : verdict k with
    | none =>
      rw [hv] at hon
      exact absurd hon hoff
    | some b =>
      rw [hv] at hon
      cases b with
      | false => cases hon
      | true =>
        refine ⟨rfl, hoff, ?_⟩
        cases hph : phase immediate due verdict k with
        | quiet =>
          rw [hph, step] at hon
          split at hon
          · rename_i himm
            exact Or.inl himm
          · cases hon
        | pending j =>
          rw [hph, step] at hon
          split at hon
          · rename_i hdue
            obtain ⟨-, hjk, hj, hquiet, hall⟩ := pending_spec k hph
            refine Or.inr ⟨j, hjk, by simp [hj], fun i hji hik => ?_, by simp [hquiet],
              (quiet_iff j).mp hquiet, hdue⟩
            by_cases hi : i = k
            · simp [hi, hv]
            · exact hall i hji (by omega)
          · cases hon
        | active => exact absurd hph hoff
  · rintro ⟨hv, hoff, hwhy⟩
    refine ⟨hoff, ?_⟩
    rw [phase, hv]
    cases himm : immediate with
    | true =>
      rw [himm] at hoff
      cases hph : phase true due verdict k with
      | quiet => rfl
      | pending j => exact absurd (pending_spec k hph).1 (by simp)
      | active => exact absurd hph hoff
    | false =>
      rw [himm] at hoff hwhy
      rcases hwhy with h | ⟨j, hjk, hsome, hstreak, -, hafter, hdue⟩
      · cases h
      · have hquiet : phase false due verdict j = .quiet := (quiet_iff j).mpr hafter
        have hstanding := standing rfl hquiet
          (hstreak.begins (Nat.le_of_lt hjk) hsome) k hjk fun i hji hik => hstreak i hji (by omega)
        rcases hstanding with h | h
        · rw [h, step, if_pos hdue]
        · exact absurd h hoff

end Runs

end OpenObs.Foundation.HoldDown
