import Mathlib.Data.List.Basic

/-!
# Tables with foreign keys

Tables of rows that refer to one another by a key column. A `DELETE` takes the rows with it that
refer to a deleted row `ON DELETE CASCADE`, and these take others; it fails and changes nothing if
a row refers to one of them `ON DELETE RESTRICT`.
-/

namespace OpenObs.Foundation

/-- The columns of a row; `none` is `NULL`. -/
abbrev Row (C V : Type) : Type := C → Option V

abbrev Database (T C V : Type) : Type := T → List (Row C V)

inductive OnDelete : Type where
  | cascade | restrict
deriving DecidableEq

structure ForeignKey (T C : Type) where
  child : T
  column : C
  parent : T
  onDelete : OnDelete

structure Schema (T C : Type) where
  key : C
  keys : List (ForeignKey T C)
  rank : T → ℕ
  depth : ℕ
  layered : ∀ fk ∈ keys, fk.onDelete = .cascade → rank fk.parent < rank fk.child
  bounded : ∀ t, rank t ≤ depth

namespace Schema

variable {T C V : Type} [DecidableEq T] [DecidableEq V]

/-- The row refers to the other one; `NULL` refers to none. -/
def Refers (S : Schema T C) (fk : ForeignKey T C) (row parent : Row C V) : Prop :=
  (row fk.column).isSome ∧ row fk.column = parent S.key

instance (S : Schema T C) (fk : ForeignKey T C) (row parent : Row C V) :
    Decidable (S.Refers fk row parent) := inferInstanceAs (Decidable (_ ∧ _))

def doomed (S : Schema T C) (db : Database T C V) (p : T → Row C V → Bool) :
    ℕ → T → Row C V → Bool
  | 0, t, r => p t r
  | n + 1, t, r => p t r || S.keys.any fun fk =>
    decide (fk.child = t) && decide (fk.onDelete = .cascade) &&
      (db fk.parent).any fun q => S.doomed db p n fk.parent q && decide (S.Refers fk r q)

def gone (S : Schema T C) (db : Database T C V) (p : T → Row C V → Bool) : T → Row C V → Bool :=
  S.doomed db p S.depth

def foreignKeyFailed : String := "FOREIGN KEY constraint failed"

/-- `DELETE` of the rows in `p`. -/
def delete (S : Schema T C) (p : T → Row C V → Bool) (db : Database T C V) :
    Except String (Database T C V) :=
  if S.keys.any fun fk => decide (fk.onDelete = .restrict) && (db fk.child).any fun r =>
      (db fk.parent).any fun q => S.gone db p fk.parent q && decide (S.Refers fk r q)
  then .error foreignKeyFailed
  else .ok fun t => (db t).filter fun r => !S.gone db p t r

/-- `UPDATE` of the rows of a table that are in `p`. -/
def update (S : Schema T C) (t : T) (p : Row C V → Bool) (f : Row C V → Row C V)
    (db : Database T C V) : Except String (Database T C V) :=
  if (db t).any fun r => p r && S.keys.any fun fk => decide (fk.child = t) &&
      (f r fk.column).isSome && !(db fk.parent).any fun q => decide (S.Refers fk (f r) q)
  then .error foreignKeyFailed
  else .ok (Function.update db t ((db t).map fun r => if p r then f r else r))

/-! ## What a deletion reaches -/

section Reach

variable {S : Schema T C} {db db' : Database T C V} {p : T → Row C V → Bool} {t : T} {r q : Row C V}
  {fk : ForeignKey T C}

theorem doomed_succ {n : ℕ} : S.doomed db p (n + 1) t r = true ↔ p t r = true ∨
    ∃ fk ∈ S.keys, fk.child = t ∧ fk.onDelete = .cascade ∧
      ∃ q ∈ db fk.parent, S.doomed db p n fk.parent q = true ∧ S.Refers fk r q := by
  simp only [doomed, Bool.or_eq_true, List.any_eq_true, Bool.and_eq_true, decide_eq_true_eq]
  constructor
  · rintro (hp | ⟨fk, hfk, ⟨hchild, hcascade⟩, q, hq, hdoomed, hrefers⟩)
    · exact Or.inl hp
    · exact Or.inr ⟨fk, hfk, hchild, hcascade, q, hq, hdoomed, hrefers⟩
  · rintro (hp | ⟨fk, hfk, hchild, hcascade, q, hq, hdoomed, hrefers⟩)
    · exact Or.inl hp
    · exact Or.inr ⟨fk, hfk, ⟨hchild, hcascade⟩, q, hq, hdoomed, hrefers⟩

theorem doomed_of_rank_le (n : ℕ) : ∀ (m : ℕ) (t : T) (r : Row C V), S.rank t ≤ n → S.rank t ≤ m →
    S.doomed db p n t r = true → S.doomed db p m t r = true := by
  induction n with
  | zero =>
    intro m t r _ _ h
    cases m with
    | zero => exact h
    | succ m => exact doomed_succ.mpr (Or.inl h)
  | succ n ih =>
    intro m t r hn hm h
    rcases doomed_succ.mp h with hp | ⟨fk, hfk, hchild, hcascade, q, hq, hdoomed, hrefers⟩
    · cases m with
      | zero => exact hp
      | succ m => exact doomed_succ.mpr (Or.inl hp)
    · -- the parent has a smaller rank
      have hlt := S.layered fk hfk hcascade
      rw [hchild] at hlt
      cases m with
      | zero => omega
      | succ m =>
        refine doomed_succ.mpr (Or.inr ⟨fk, hfk, hchild, hcascade, q, hq, ?_, hrefers⟩)
        exact ih m _ q (by omega) (by omega) hdoomed

theorem gone_of_mem (h : p t r = true) : S.gone db p t r = true := by
  unfold gone
  cases S.depth with
  | zero => exact h
  | succ n => exact doomed_succ.mpr (Or.inl h)

theorem gone_cases (h : S.gone db p t r = true) : p t r = true ∨
    ∃ fk ∈ S.keys, fk.child = t ∧ fk.onDelete = .cascade ∧
      ∃ q ∈ db fk.parent, S.gone db p fk.parent q = true ∧ S.Refers fk r q := by
  unfold gone at h ⊢
  cases hdepth : S.depth with
  | zero =>
    rw [hdepth] at h
    exact Or.inl h
  | succ n =>
    rw [hdepth] at h
    refine (doomed_succ.mp h).imp_right ?_
    rintro ⟨fk, hfk, hchild, hcascade, q, hq, hdoomed, hrefers⟩
    refine ⟨fk, hfk, hchild, hcascade, q, hq, ?_, hrefers⟩
    have hlt := S.layered fk hfk hcascade
    have hbound := S.bounded fk.child
    exact doomed_of_rank_le n _ _ q (by omega) (by omega) hdoomed

theorem gone_cascade (hfk : fk ∈ S.keys) (hcascade : fk.onDelete = .cascade)
    (hq : q ∈ db fk.parent) (hgone : S.gone db p fk.parent q = true) (hrefers : S.Refers fk r q) :
    S.gone db p fk.child r = true := by
  unfold gone at hgone ⊢
  have hlt := S.layered fk hfk hcascade
  have hbound := S.bounded fk.child
  cases hdepth : S.depth with
  | zero => omega
  | succ n =>
    rw [hdepth] at hgone
    refine doomed_succ.mpr (Or.inr ⟨fk, hfk, rfl, hcascade, q, hq, ?_, hrefers⟩)
    exact doomed_of_rank_le _ n _ q (by omega) (by omega) hgone

theorem gone_eq_false (hchild : ∀ fk ∈ S.keys, fk.onDelete = .cascade → fk.child ≠ t)
    (h : p t r = false) : S.gone db p t r = false := by
  rw [← Bool.not_eq_true]
  intro hgone
  rcases gone_cases hgone with hp | ⟨fk, hfk, heq, hcascade, -⟩
  · rw [h] at hp
    cases hp
  · exact hchild fk hfk hcascade heq

theorem mem_delete (h : S.delete p db = .ok db') :
    r ∈ db' t ↔ r ∈ db t ∧ S.gone db p t r = false := by
  unfold delete at h
  split at h
  · cases h
  · cases h
    rw [List.mem_filter, Bool.not_eq_true']

theorem delete_eq (h : S.delete p db = .ok db') (hkeep : ∀ r ∈ db t, S.gone db p t r = false) :
    db' t = db t := by
  unfold delete at h
  split at h
  · cases h
  · cases h
    refine List.filter_eq_self.mpr fun r hr => ?_
    rw [hkeep r hr]
    rfl

theorem delete_restrict (h : S.delete p db = .ok db') (hfk : fk ∈ S.keys)
    (hrestrict : fk.onDelete = .restrict) (hr : r ∈ db fk.child) (hq : q ∈ db fk.parent)
    (hgone : S.gone db p fk.parent q = true) : ¬ S.Refers fk r q := by
  intro hrefers
  unfold delete at h
  rw [if_pos] at h
  · cases h
  · simp only [List.any_eq_true, Bool.and_eq_true, decide_eq_true_eq]
    exact ⟨fk, hfk, hrestrict, r, hr, q, hq, hgone, hrefers⟩

theorem delete_ok (hfree : ∀ fk ∈ S.keys, fk.onDelete = .restrict →
    ∀ q ∈ db fk.parent, S.gone db p fk.parent q = false) : ∃ db', S.delete p db = .ok db' := by
  unfold delete
  rw [if_neg]
  · exact ⟨_, rfl⟩
  · simp only [List.any_eq_true, Bool.and_eq_true, decide_eq_true_eq]
    rintro ⟨fk, hfk, hrestrict, r, -, q, hq, hgone, -⟩
    rw [hfree fk hfk hrestrict q hq] at hgone
    cases hgone

theorem update_eq {f : Row C V → Row C V} {p : Row C V → Bool} (h : S.update t p f db = .ok db') :
    db' = Function.update db t ((db t).map fun r => if p r then f r else r) := by
  unfold update at h
  split at h
  · cases h
  · cases h
    rfl

end Reach

end Schema

end OpenObs.Foundation
