import OpenObs.Foundation.Async

/-!
# Parts of a state

A program over a part of a state, run on the whole of it: what the part does not
cover stays as it is. And what a run keeps, program by program: `keep_bind` and
`keep_tryCatch` follow a predicate of the state through the sections.
-/

namespace OpenObs.Foundation

/-- A part of a state: how it is read, and what the state is with another one in its
place. -/
structure Part (τ σ : Type) where
  get : τ → σ
  set : σ → τ → τ
  get_set : ∀ s t, get (set s t) = s
  set_get : ∀ t, set (get t) t = t
  set_set : ∀ s s' t, set s (set s' t) = set s t

namespace Prog

variable {τ σ α β : Type}

def zoom (part : Part τ σ) : Prog σ α → Prog τ α
  | .ret a => .ret a
  | .fail e => .fail e
  | .sect f k => .sect (fun t => part.set (f (part.get t)) t) (fun t => (k (part.get t)).zoom part)

theorem run_zoom (part : Part τ σ) {p : Prog σ α} :
    ∀ {t : τ}, (p.zoom part).run t =
      ((p.run (part.get t)).1, part.set (p.run (part.get t)).2 t) := by
  induction p with
  | ret a =>
    intro t
    show (Except.ok a, t) = (Except.ok a, part.set (part.get t) t)
    rw [part.set_get]
  | fail e =>
    intro t
    show (Except.error e, t) = (Except.error e, part.set (part.get t) t)
    rw [part.set_get]
  | sect f k ih =>
    intro t
    show ((k (part.get t)).zoom part).run (part.set (f (part.get t)) t) = _
    rw [ih, part.get_set, part.set_set]
    rfl

theorem Holds.zoom (part : Part τ σ) {R' G' : σ → σ → Prop} {Q' : Except String α → σ → Prop}
    {R G : τ → τ → Prop} {Q : Except String α → τ → Prop}
    (hR : ∀ t t', R t t' → R' (part.get t) (part.get t'))
    (hG : ∀ t s, G' (part.get t) s → G t (part.set s t))
    (hQ : ∀ r t, Q' r (part.get t) → Q r t) {p : Prog σ α} :
    ∀ {t : τ}, p.Holds R' G' Q' (part.get t) → (p.zoom part).Holds R G Q t := by
  induction p with
  | ret a => exact fun h => hQ _ _ h
  | fail e => exact fun h => hQ _ _ h
  | sect f k ih =>
    intro t h t' ht
    obtain ⟨hg, hk⟩ := h (part.get t') (hR t t' ht)
    refine ⟨hG t' _ hg, ih (part.get t') ?_⟩
    rw [part.get_set]
    exact hk

theorem run_tryCatch {p : Prog σ α} {h : String → Prog σ α} :
    ∀ {s : σ}, (tryCatch p h).run s =
      match p.run s with
      | (.ok a, s') => (.ok a, s')
      | (.error e, s') => (h e).run s' := by
  change ∀ {s : σ}, (p.handle h).run s = _
  induction p with
  | ret a => exact rfl
  | fail e => exact rfl
  | sect f k ih =>
    intro s
    exact ih s

@[simp] theorem run_throw {e : String} {s : σ} : (throw e : Prog σ α).run s = (.error e, s) := rfl

@[simp] theorem run_write {f : σ → σ} {s : σ} : (write f).run s = (.ok (), f s) := rfl

theorem run_bind_ok {p : Prog σ α} {k : α → Prog σ β} {s s' : σ} {b : β}
    (h : (p >>= k).run s = (.ok b, s')) :
    ∃ a s₁, p.run s = (.ok a, s₁) ∧ (k a).run s₁ = (.ok b, s') := by
  rw [run_bind] at h
  cases hrun : p.run s with
  | mk outcome s₁ =>
    rw [hrun] at h
    cases outcome with
    | error e => cases h
    | ok a => exact ⟨a, s₁, rfl, h⟩

theorem run_bind_error {p : Prog σ α} {k : α → Prog σ β} {s s' : σ} {e : String}
    (h : (p >>= k).run s = (.error e, s')) : p.run s = (.error e, s') ∨
      ∃ a s₁, p.run s = (.ok a, s₁) ∧ (k a).run s₁ = (.error e, s') := by
  rw [run_bind] at h
  cases hrun : p.run s with
  | mk outcome s₁ =>
    rw [hrun] at h
    cases outcome with
    | error e' =>
      cases h
      exact Or.inl rfl
    | ok a => exact Or.inr ⟨a, s₁, rfl, h⟩

theorem run_discard {p : Prog σ α} {f : α → β} {s : σ} :
    ((p >>= fun a => pure (f a)).run s).2 = (p.run s).2 := by
  rw [run_bind]
  cases p.run s with
  | mk r s' => cases r <;> rfl

/-! ## What a run keeps -/

variable {P : σ → Prop}

theorem keep_bind {p : Prog σ α} {k : α → Prog σ β} {s : σ} (hp : P (p.run s).2)
    (hk : ∀ a s', p.run s = (.ok a, s') → P s' → P ((k a).run s').2) :
    P ((p >>= k).run s).2 := by
  rw [run_bind]
  cases hrun : p.run s with
  | mk r s' =>
    rw [hrun] at hp
    cases r with
    | error e => exact hp
    | ok a => exact hk a s' hrun hp

theorem keep_tryCatch {p : Prog σ α} {h : String → Prog σ α} {s : σ} (hp : P (p.run s).2)
    (hh : ∀ e s', p.run s = (.error e, s') → P s' → P ((h e).run s').2) :
    P ((tryCatch p h).run s).2 := by
  rw [run_tryCatch]
  cases hrun : p.run s with
  | mk r s' =>
    rw [hrun] at hp
    cases r with
    | error e => exact hh e s' hrun hp
    | ok a => exact hp

theorem keep_zoom (part : Part τ σ) {P : τ → Prop} {p : Prog σ α} {t : τ}
    (hp : P (part.set (p.run (part.get t)).2 t)) : P ((p.zoom part).run t).2 := by
  rw [run_zoom]
  exact hp

/-! ## What a program leaves alone -/

variable {ρ : Type}

/-- No section of the program changes the reading `f`, whatever happens between the sections. -/
def Leaves (f : σ → ρ) : Prog σ α → Prop
  | .ret _ => True
  | .fail _ => True
  | .sect act k => (∀ s, f (act s) = f s) ∧ ∀ s, (k s).Leaves f

variable {f : σ → ρ} {p : Prog σ α}

@[simp] theorem leaves_pure {a : α} : (pure a : Prog σ α).Leaves f := trivial

@[simp] theorem leaves_throw {e : String} : (throw e : Prog σ α).Leaves f := trivial

@[simp] theorem leaves_read {g : σ → α} : (read g).Leaves f := ⟨fun _ => rfl, fun _ => trivial⟩

theorem leaves_write {g : σ → σ} (h : ∀ s, f (g s) = f s) : (write g).Leaves f :=
  ⟨h, fun _ => trivial⟩

theorem leaves_atomic {g : σ → α × σ} (h : ∀ s, f (g s).2 = f s) : (atomic g).Leaves f :=
  ⟨h, fun _ => trivial⟩

theorem Leaves.bind {k : α → Prog σ β} (hp : p.Leaves f) (hk : ∀ a, (k a).Leaves f) :
    (p >>= k).Leaves f := by
  change (p.bind k).Leaves f
  induction p with
  | ret a => exact hk a
  | fail e => trivial
  | sect act next ih => exact ⟨hp.1, fun s => ih s (hp.2 s)⟩

theorem Leaves.tryCatch {h : String → Prog σ α} (hp : p.Leaves f) (hh : ∀ e, (h e).Leaves f) :
    (tryCatch p h).Leaves f := by
  change (p.handle h).Leaves f
  induction p with
  | ret a => trivial
  | fail e => exact hh e
  | sect act next ih => exact ⟨hp.1, fun s => ih s (hp.2 s)⟩

theorem Leaves.map {g : α → β} (hp : p.Leaves f) : (g <$> p).Leaves f :=
  hp.bind fun _ => leaves_pure

theorem Leaves.of_reading {ρ' : Type} (g : ρ → ρ') (hp : p.Leaves f) :
    p.Leaves fun s => g (f s) := by
  induction p with
  | ret a => trivial
  | fail e => trivial
  | sect act next ih => exact ⟨fun s => congrArg g (hp.1 s), fun s => ih s (hp.2 s)⟩

theorem Leaves.all (hp : p.Leaves id) : p.Leaves f := hp.of_reading f

theorem leaves_const (p : Prog σ α) (r : ρ) : p.Leaves fun _ => r := by
  induction p with
  | ret a => trivial
  | fail e => trivial
  | sect act next ih => exact ⟨fun _ => rfl, ih⟩

theorem Leaves.zoom (part : Part τ σ) {ρ' : Type} {g : τ → ρ'} (hp : p.Leaves f)
    (hg : ∀ t s, f s = f (part.get t) → g (part.set s t) = g t) :
    (p.zoom part).Leaves g := by
  induction p with
  | ret a => trivial
  | fail e => trivial
  | sect act next ih => exact ⟨fun t => hg t _ (hp.1 _), fun t => ih _ (hp.2 _)⟩

theorem Leaves.zoom_id (part : Part τ σ) (hp : p.Leaves id) : (p.zoom part).Leaves id :=
  Leaves.zoom (f := id) part hp fun t s h => by
    rw [show s = part.get t from h]
    exact part.set_get t

theorem Leaves.run (hp : p.Leaves f) : ∀ s, f (p.run s).2 = f s := by
  induction p with
  | ret a => exact fun _ => rfl
  | fail e => exact fun _ => rfl
  | sect act next ih => exact fun s => (ih s (hp.2 s) (act s)).trans (hp.1 s)

attribute [irreducible] Leaves

end Prog

end OpenObs.Foundation

/-!
# Programs that are cut short

`p.failAt e n` is `p` where the section with number `n` throws `e` in place of running: a
database that is locked, a disk that is full. A program with fewer sections is not touched.
It is meant for programs that catch nothing.
-/

namespace OpenObs.Foundation.Prog

variable {σ τ α β : Type}

def failAt (e : String) : Prog σ α → ℕ → Prog σ α
  | .ret a, _ => .ret a
  | .fail e', _ => .fail e'
  | .sect _ _, 0 => .fail e
  | .sect f k, n + 1 => .sect f fun s => (k s).failAt e n

variable {e : String} {n : ℕ} {s : σ}

@[simp] theorem failAt_pure {a : α} : (pure a : Prog σ α).failAt e n = pure a := rfl

@[simp] theorem failAt_throw {e' : String} :
    (throw e' : Prog σ α).failAt e n = throw e' := rfl

/-! ## One section and what follows -/

@[simp] theorem run_failAt_attempt_zero {f : σ → Except String α × σ} {k : α → Prog σ β} :
    ((attempt f >>= k).failAt e 0).run s = (.error e, s) := rfl

theorem run_failAt_attempt {f : σ → Except String α × σ} {k : α → Prog σ β} :
    ((attempt f >>= k).failAt e (n + 1)).run s =
      match f s with
      | (.ok a, s') => ((k a).failAt e n).run s'
      | (.error e', s') => (.error e', s') := by
  change ((Prog.bind _ k).failAt e n).run (f s).2 = _
  dsimp only
  cases h : f s with
  | mk outcome s' => cases outcome <;> rfl

@[simp] theorem run_failAt_read_zero {f : σ → α} {k : α → Prog σ β} :
    ((read f >>= k).failAt e 0).run s = (.error e, s) := rfl

@[simp] theorem run_failAt_read {f : σ → α} {k : α → Prog σ β} :
    ((read f >>= k).failAt e (n + 1)).run s = ((k (f s)).failAt e n).run s := rfl

@[simp] theorem run_failAt_atomic_zero {f : σ → α × σ} {k : α → Prog σ β} :
    ((atomic f >>= k).failAt e 0).run s = (.error e, s) := rfl

@[simp] theorem run_failAt_atomic {f : σ → α × σ} {k : α → Prog σ β} :
    ((atomic f >>= k).failAt e (n + 1)).run s = ((k (f s).1).failAt e n).run (f s).2 := rfl

/-! ## Around a program -/

theorem failAt_zoom (part : Part τ σ) {p : Prog σ α} :
    ∀ {n : ℕ}, (p.zoom part).failAt e n = (p.failAt e n).zoom part := by
  induction p with
  | ret a => exact rfl
  | fail e' => exact rfl
  | sect f k ih =>
    intro n
    cases n with
    | zero => rfl
    | succ n =>
      change Prog.sect _ _ = Prog.sect _ _
      congr 1
      funext t
      exact ih (part.get t)

theorem failAt_map {p : Prog σ α} {f : α → β} :
    ∀ {n : ℕ}, (p >>= fun a => pure (f a)).failAt e n = p.failAt e n >>= fun a => pure (f a) := by
  induction p with
  | ret a => exact rfl
  | fail e' => exact rfl
  | sect g k ih =>
    intro n
    cases n with
    | zero => rfl
    | succ n =>
      change Prog.sect _ _ = Prog.sect _ _
      congr 1
      funext t
      exact ih t

end OpenObs.Foundation.Prog
