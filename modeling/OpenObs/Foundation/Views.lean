import OpenObs.Foundation.Parts

/-!
# Views of a state

A view keeps a part of the state and drops the rest. A program is local in a state
if it does on the view what it does on the whole, and leaves the rest as it was.
Two sessions of local programs that start with the same view go through the same
results.
-/

namespace OpenObs.Foundation

section Views

variable {σ ρ α β Op : Type} {own : σ → σ} {rest : σ → ρ}

structure Local (own : σ → σ) (rest : σ → ρ) (p : Prog σ α) (s : σ) : Prop where
  sees : p.run (own s) = ((p.run s).1, own (p.run s).2)
  leaves : rest (p.run s).2 = rest s

namespace Local

theorem pure {a : α} {s : σ} : Local own rest (Pure.pure a) s := ⟨rfl, rfl⟩

theorem throw {e : String} {s : σ} : Local own rest (MonadExcept.throw e : Prog σ α) s := ⟨rfl, rfl⟩

theorem read {f : σ → α} {s : σ} (h : f (own s) = f s) : Local own rest (Prog.read f) s :=
  ⟨congrArg (fun a => (Except.ok a, own s)) h, rfl⟩

theorem write {f : σ → σ} {s : σ} (h : f (own s) = own (f s)) (hrest : rest (f s) = rest s) :
    Local own rest (Prog.write f) s :=
  ⟨congrArg (fun t => (Except.ok (), t)) h, hrest⟩

theorem bind {p : Prog σ α} {k : α → Prog σ β} {s : σ} (hp : Local own rest p s)
    (hk : ∀ a s', p.run s = (.ok a, s') → Local own rest (k a) s') :
    Local own rest (p >>= k) s := by
  cases hrun : p.run s with
  | mk r s' =>
    have hsees := hp.sees
    have hleaves := hp.leaves
    rw [hrun] at hsees hleaves
    cases r with
    | error e =>
      constructor
      · rw [Prog.run_bind, Prog.run_bind, hsees, hrun]
      · rw [Prog.run_bind, hrun]
        exact hleaves
    | ok a =>
      have hrest := hk a s' hrun
      constructor
      · rw [Prog.run_bind, Prog.run_bind, hsees, hrun]
        exact hrest.sees
      · rw [Prog.run_bind, hrun]
        exact hrest.leaves.trans hleaves

theorem bind_reading {p : Prog σ α} {k : α → Prog σ β} {s : σ} {a : α} (hp : Local own rest p s)
    (hrun : p.run s = (.ok a, s)) (hk : Local own rest (k a) s) : Local own rest (p >>= k) s := by
  refine hp.bind fun a' s' hrun' => ?_
  rw [hrun] at hrun'
  cases hrun'
  exact hk

theorem tryCatch {p : Prog σ α} {h : String → Prog σ α} {s : σ} (hp : Local own rest p s)
    (hh : ∀ e s', p.run s = (.error e, s') → Local own rest (h e) s') :
    Local own rest (MonadExcept.tryCatch p h) s := by
  cases hrun : p.run s with
  | mk r s' =>
    have hsees := hp.sees
    have hleaves := hp.leaves
    rw [hrun] at hsees hleaves
    cases r with
    | error e =>
      have hrest := hh e s' hrun
      constructor
      · rw [Prog.run_tryCatch, Prog.run_tryCatch, hsees, hrun]
        exact hrest.sees
      · rw [Prog.run_tryCatch, hrun]
        exact hrest.leaves.trans hleaves
    | ok a =>
      constructor
      · rw [Prog.run_tryCatch, Prog.run_tryCatch, hsees, hrun]
      · rw [Prog.run_tryCatch, hrun]
        exact hleaves

theorem agree {p : Prog σ α} {s₁ s₂ : σ} (h₁ : Local own rest p s₁) (h₂ : Local own rest p s₂)
    (hview : own s₁ = own s₂) :
    (p.run s₁).1 = (p.run s₂).1 ∧ own (p.run s₁).2 = own (p.run s₂).2 := by
  have hsees : p.run (own s₁) = ((p.run s₂).1, own (p.run s₂).2) := by
    rw [hview]
    exact h₂.sees
  rw [h₁.sees] at hsees
  exact Prod.mk.inj hsees

end Local

def observe (code : Op → Prog σ α) : List Op → σ → List (Except String α)
  | [], _ => []
  | o :: os, s => ((code o).run s).1 :: observe code os ((code o).run s).2

variable {code : Op → Prog σ α} {Ok : Op → σ → Prop}

/-- What an operation keeps and what it brings along: in a session whose operations meet `Ok`, the
invariant carries `Q` from each of them to the next. -/
theorem allServed_of_invariant {I : σ → Prop} {Q : Op → σ → Prop}
    (hop : ∀ o s, I s → Ok o s → Q o s ∧ I ((code o).run s).2) (os : List Op) :
    ∀ {s : σ}, I s → AllServed code Ok os s → AllServed code Q os s := by
  induction os with
  | nil => exact fun _ _ => trivial
  | cons o os ih =>
    intro s hI hok
    obtain ⟨hQ, hnext⟩ := hop o s hI hok.1
    exact ⟨hQ, ih hnext hok.2⟩

theorem rest_serveAll (hlocal : ∀ o s, Ok o s → Local own rest (code o) s) (os : List Op) :
    ∀ {s : σ}, AllServed code Ok os s → rest (serveAll code os s) = rest s := by
  induction os with
  | nil => exact fun _ => rfl
  | cons o os ih => exact fun hok => (ih hok.2).trans (hlocal o _ hok.1).leaves

theorem observe_agree (hlocal : ∀ o s, Ok o s → Local own rest (code o) s) (os : List Op) :
    ∀ {s₁ s₂ : σ}, AllServed code Ok os s₁ → AllServed code Ok os s₂ → own s₁ = own s₂ →
      observe code os s₁ = observe code os s₂ := by
  induction os with
  | nil => exact fun _ _ _ => rfl
  | cons o os ih =>
    intro s₁ s₂ hok₁ hok₂ hview
    obtain ⟨hresult, hnext⟩ := (hlocal o s₁ hok₁.1).agree (hlocal o s₂ hok₂.1) hview
    rw [observe, observe, hresult, ih hok₁.2 hok₂.2 hnext]

end Views

/-! ## Lists in order -/

section Sorting

variable {α : Type} {le : α → α → Bool}

theorem append_unique {q : α → Prop} {xs ys us vs : List α} (h : xs ++ ys = us ++ vs)
    (hxs : ∀ a ∈ xs, q a) (hys : ∀ a ∈ ys, ¬ q a) (hus : ∀ a ∈ us, q a) (hvs : ∀ a ∈ vs, ¬ q a) :
    xs = us ∧ ys = vs := by
  rcases List.append_eq_append_iff.mp h with ⟨zs, rfl, rfl⟩ | ⟨zs, rfl, rfl⟩
  · cases zs with
    | nil => simp
    | cons z zs =>
      exact absurd (hus z (by simp)) (hys z (by simp))
  · cases zs with
    | nil => simp
    | cons z zs =>
      exact absurd (hxs z (by simp)) (hvs z (by simp))

theorem find?_filter_of_imp {keep q : α → Bool} {l : List α}
    (h : ∀ a ∈ l, q a = true → keep a = true) : (l.filter keep).find? q = l.find? q := by
  induction l with
  | nil => rfl
  | cons a l ih =>
    have htail := ih fun b hb => h b (List.mem_cons_of_mem _ hb)
    cases hq : q a with
    | true =>
      rw [List.filter_cons_of_pos (h a List.mem_cons_self hq), List.find?_cons_of_pos hq,
        List.find?_cons_of_pos hq]
    | false =>
      rw [List.find?_cons_of_neg (by simp [hq]), ← htail, List.filter_cons]
      split
      · rw [List.find?_cons_of_neg (by simp [hq])]
      · rfl

theorem any_congr_of_mem {p q : α → Bool} {l : List α} (h : ∀ a ∈ l, p a = q a) :
    l.any p = l.any q := by
  rw [Bool.eq_iff_iff, List.any_eq_true, List.any_eq_true]
  constructor
  · rintro ⟨a, ha, hp⟩
    exact ⟨a, ha, h a ha ▸ hp⟩
  · rintro ⟨a, ha, hq⟩
    exact ⟨a, ha, (h a ha).trans hq⟩

theorem filter_mergeSort (htrans : ∀ a b c : α, le a b = true → le b c = true → le a c = true)
    (htotal : ∀ a b : α, (le a b || le b a) = true) (keep : α → Bool) :
    ∀ l : List α, (l.mergeSort le).filter keep = (l.filter keep).mergeSort le := by
  intro l
  induction l with
  | nil => simp
  | cons a l ih =>
    obtain ⟨l₁, l₂, hcons, htail, hbefore⟩ := List.mergeSort_cons htrans htotal a l
    have hsorted := List.pairwise_mergeSort htrans htotal (a :: l)
    rw [hcons] at hsorted
    have hafter : ∀ b ∈ l₂, le a b = true := by
      have hright := (List.pairwise_append.mp hsorted).2.1
      exact (List.pairwise_cons.mp hright).1
    rw [hcons, List.filter_append, List.filter_cons, List.filter_cons]
    rw [htail, List.filter_append] at ih
    cases hkeep : keep a with
    | false => exact ih
    | true =>
      obtain ⟨m₁, m₂, hcons', htail', hbefore'⟩ :=
        List.mergeSort_cons htrans htotal a (l.filter keep)
      have hsorted' := List.pairwise_mergeSort htrans htotal (a :: l.filter keep)
      rw [hcons'] at hsorted'
      have hafter' : ∀ b ∈ m₂, le a b = true := by
        have hright := (List.pairwise_append.mp hsorted').2.1
        exact (List.pairwise_cons.mp hright).1
      obtain ⟨hfirst, hlast⟩ := append_unique (ih.trans htail')
        (q := fun b => le a b = false)
        (fun b hb => by simpa using hbefore b (List.mem_of_mem_filter hb))
        (fun b hb => by simpa using hafter b (List.mem_of_mem_filter hb))
        (fun b hb => by simpa using hbefore' b hb)
        (fun b hb => by simpa using hafter' b hb)
      rw [if_pos rfl, if_pos rfl, hcons', hfirst, hlast]

end Sorting

end OpenObs.Foundation
