import Mathlib.Data.List.Chain

/-!
# Asynchronous programs

An `async` function runs in *synchronous sections*: the code between two `await`s executes without
interruption, and every `await` is a point where other functions may run.
-/

namespace OpenObs.Foundation

/-- A program over the shared state `σ` that returns an `α` or throws. -/
inductive Prog (σ α : Type) : Type where
  | ret (a : α)
  | fail (e : String)
  | sect (act : σ → σ) (next : σ → Prog σ α)   -- `next` sees the state before `act`

namespace Prog

variable {σ α β : Type}

/-! ## The monad -/

def bind : Prog σ α → (α → Prog σ β) → Prog σ β
  | .ret a, k => k a
  | .fail e, _ => .fail e
  | .sect f g, k => .sect f (fun s => (g s).bind k)

/-- `try … catch`: the handler takes over where the body throws. -/
def handle : Prog σ α → (String → Prog σ α) → Prog σ α
  | .ret a, _ => .ret a
  | .fail e, h => h e
  | .sect f g, h => .sect f (fun s => (g s).handle h)

instance : Monad (Prog σ) where
  pure := .ret
  bind := bind

instance : MonadExceptOf String (Prog σ) where
  throw := .fail
  tryCatch := handle

def atomic (f : σ → α × σ) : Prog σ α :=
  .sect (fun s => (f s).2) (fun s => .ret (f s).1)

def read (f : σ → α) : Prog σ α := .sect id (fun s => .ret (f s))

def write (f : σ → σ) : Prog σ Unit := .sect f (fun _ => .ret ())

def attempt (f : σ → Except String α × σ) : Prog σ α :=
  .sect (fun s => (f s).2) (fun s =>
    match (f s).1 with
    | .ok a => .ret a
    | .error e => .fail e)

def finished : Prog σ α → Bool
  | .sect _ _ => false
  | _ => true

/-! ## Running alone -/

def run : Prog σ α → σ → Except String α × σ
  | .ret a, s => (.ok a, s)
  | .fail e, s => (.error e, s)
  | .sect f k, s => (k s).run (f s)

def trace : Prog σ α → σ → List σ
  | .ret _, _ => []
  | .fail _, _ => []
  | .sect f k, s => f s :: (k s).trace (f s)

inductive Remains (p : Prog σ α) : Prog σ α → Prop
  | refl : Remains p p
  | step {f : σ → σ} {k : σ → Prog σ α} (s : σ) : Remains p (.sect f k) → Remains p (k s)

/-! ## Rely and guarantee -/

/-- From state `s`, under interference `R`: every section is a `G`-change, and
the program ends in `Q`. -/
def Holds (R G : σ → σ → Prop) (Q : Except String α → σ → Prop) :
    Prog σ α → σ → Prop
  | .ret a, s => Q (.ok a) s
  | .fail e, s => Q (.error e) s
  | .sect f k, s => ∀ t, R s t → G t (f t) ∧ (k t).Holds R G Q (f t)

variable {R G : σ → σ → Prop} {Q : Except String α → σ → Prop}

theorem Holds.mono {R' G' : σ → σ → Prop} {Q' : Except String α → σ → Prop}
    (hR : ∀ s t, R' s t → R s t) (hG : ∀ s t, G s t → G' s t)
    (hQ : ∀ r s, Q r s → Q' r s) {p : Prog σ α} :
    ∀ {s : σ}, p.Holds R G Q s → p.Holds R' G' Q' s := by
  induction p with
  | ret a => exact fun h => hQ _ _ h
  | fail e => exact fun h => hQ _ _ h
  | sect f k ih =>
    intro s h t ht
    obtain ⟨hg, hk⟩ := h t (hR _ _ ht)
    exact ⟨hG _ _ hg, ih t hk⟩

theorem Holds.post {Q' : Except String α → σ → Prop}
    (hQ : ∀ r s, Q r s → Q' r s) {p : Prog σ α} {s : σ}
    (h : p.Holds R G Q s) : p.Holds R G Q' s :=
  h.mono (fun _ _ => id) (fun _ _ => id) hQ

/-- Sequencing: the first part ends in a state from which the rest holds, and
what it throws is thrown by the whole. -/
theorem Holds.bind {Q' : Except String β → σ → Prop} {p : Prog σ α}
    {k : α → Prog σ β} :
    ∀ {s : σ}, p.Holds R G (fun r t =>
        match r with
        | .ok a => (k a).Holds R G Q' t
        | .error e => Q' (.error e) t) s →
      (p >>= k).Holds R G Q' s := by
  change ∀ {s : σ}, _ → (p.bind k).Holds R G Q' s
  induction p with
  | ret a => exact fun h => h
  | fail e => exact fun h => h
  | sect f g ih =>
    intro s h t ht
    exact ⟨(h t ht).1, ih t (h t ht).2⟩

theorem Holds.tryCatch {p : Prog σ α} {h : String → Prog σ α} :
    ∀ {s : σ}, p.Holds R G (fun r t =>
        match r with
        | .ok a => Q (.ok a) t
        | .error e => (h e).Holds R G Q t) s →
      (tryCatch p h).Holds R G Q s := by
  change ∀ {s : σ}, _ → (p.handle h).Holds R G Q s
  induction p with
  | ret a => exact fun hp => hp
  | fail e => exact fun hp => hp
  | sect f g ih =>
    intro s hp t ht
    exact ⟨(hp t ht).1, ih t (hp t ht).2⟩

theorem Holds.bind_any {p : Prog σ α} {k : α → Prog σ β} {s : σ}
    (hp : p.Holds R G (fun _ _ => True) s)
    (hk : ∀ a t, (k a).Holds R G (fun _ _ => True) t) :
    (p >>= k).Holds R G (fun _ _ => True) s := by
  refine Holds.bind (hp.post ?_)
  rintro (e | a) t -
  · trivial
  · exact hk a t

theorem Holds.discard {P : σ → Prop} {p : Prog σ α} {s : σ}
    (h : p.Holds R G (fun _ t => P t) s) :
    (p >>= fun _ => pure ()).Holds R G (fun (_ : Except String Unit) t => P t) s := by
  refine Holds.bind (h.post ?_)
  rintro (e | a) t ht
  · exact ht
  · exact ht

theorem Holds.swallow {P : σ → Prop} {p : Prog σ α} {a : α} {s : σ}
    (h : p.Holds R G (fun _ t => P t) s) :
    (MonadExcept.tryCatch p fun (_ : String) => pure a).Holds R G (fun _ t => P t) s := by
  apply Holds.tryCatch
  refine h.post ?_
  rintro (e | b) t ht
  · exact ht
  · exact ht

theorem Holds.shift (htrans : ∀ s t u, R s t → R t u → R s u)
    (hQ : ∀ r s t, R s t → Q r s → Q r t) {p : Prog σ α} {s t : σ}
    (h : p.Holds R G Q s) (hst : R s t) : p.Holds R G Q t := by
  cases p with
  | ret a => exact hQ _ _ _ hst h
  | fail e => exact hQ _ _ _ hst h
  | sect f k => exact fun u hu => h u (htrans _ _ _ hst hu)

theorem Holds.anywhere {P : σ → Prop} {p : Prog σ α} {s : σ}
    (h : p.Holds (fun _ t => P t) G (fun _ _ => True) s) (s' : σ) :
    p.Holds (fun _ t => P t) G (fun _ _ => True) s' := by
  cases p with
  | ret a => trivial
  | fail e => trivial
  | sect f k => exact h

/-- A predicate that interference keeps is kept by a program whose own sections
look like interference. -/
theorem Holds.stable {P : σ → Prop} (hP : ∀ s t, R s t → P s → P t)
    (hGR : ∀ s t, G s t → R s t) {p : Prog σ α} :
    ∀ {s : σ}, p.Holds R G Q s → P s → p.Holds R G (fun r t => Q r t ∧ P t) s := by
  induction p with
  | ret a => exact fun h hs => ⟨h, hs⟩
  | fail e => exact fun h hs => ⟨h, hs⟩
  | sect f k ih =>
    intro s h hs t ht
    obtain ⟨hg, hk⟩ := h t ht
    exact ⟨hg, ih t hk (hP _ _ (hGR _ _ hg) (hP _ _ ht hs))⟩

/-- While an invariant holds that interference and the program's own sections keep,
the interference may be taken to be smaller. -/
theorem Holds.within {R' : σ → σ → Prop} {I : σ → Prop}
    (hR : ∀ s t, I s → R' s t → R s t ∧ I t) (hG : ∀ s t, I s → G s t → I t)
    {p : Prog σ α} : ∀ {s : σ}, I s → p.Holds R G Q s → p.Holds R' G Q s := by
  induction p with
  | ret a => exact fun _ h => h
  | fail e => exact fun _ h => h
  | sect f k ih =>
    intro s hs h t ht
    obtain ⟨hst, hI⟩ := hR s t hs ht
    obtain ⟨hg, hk⟩ := h t hst
    exact ⟨hg, ih t (hG _ _ hI hg) hk⟩

theorem Holds.given {R' G' : σ → σ → Prop} {P : σ → Prop}
    (hR : ∀ s t, R' s t → R s t ∧ P t) (hG : ∀ s t, P s → G s t → G' s t) {p : Prog σ α} :
    ∀ {s : σ}, p.Holds R G Q s → p.Holds R' G' Q s := by
  induction p with
  | ret a => exact fun h => h
  | fail e => exact fun h => h
  | sect f k ih =>
    intro s h t ht
    obtain ⟨hst, hP⟩ := hR s t ht
    obtain ⟨hg, hk⟩ := h t hst
    exact ⟨hG t (f t) hP hg, ih t hk⟩

/-! ## One section at a time -/

@[simp] theorem holds_pure {a : α} {s : σ} :
    (pure a : Prog σ α).Holds R G Q s ↔ Q (.ok a) s := Iff.rfl

@[simp] theorem holds_throw {e : String} {s : σ} :
    (throw e : Prog σ α).Holds R G Q s ↔ Q (.error e) s := Iff.rfl

@[simp] theorem holds_read {f : σ → α} {s : σ} :
    (read f).Holds R G Q s ↔ ∀ t, R s t → G t t ∧ Q (.ok (f t)) t := Iff.rfl

@[simp] theorem holds_write {f : σ → σ} {Q : Except String Unit → σ → Prop} {s : σ} :
    (write f).Holds R G Q s ↔ ∀ t, R s t → G t (f t) ∧ Q (.ok ()) (f t) := Iff.rfl

@[simp] theorem holds_atomic {f : σ → α × σ} {s : σ} :
    (atomic f).Holds R G Q s ↔
      ∀ t, R s t → G t (f t).2 ∧ Q (.ok (f t).1) (f t).2 := Iff.rfl

@[simp] theorem holds_attempt {f : σ → Except String α × σ} {s : σ} :
    (attempt f).Holds R G Q s ↔
      ∀ t, R s t → G t (f t).2 ∧ Q (f t).1 (f t).2 := by
  constructor
  · intro h t ht
    obtain ⟨hg, hk⟩ := h t ht
    refine ⟨hg, ?_⟩
    cases hr : (f t).1 <;> simpa [hr, Holds] using hk
  · intro h t ht
    obtain ⟨hg, hk⟩ := h t ht
    refine ⟨hg, ?_⟩
    cases hr : (f t).1 <;> simpa [hr, Holds] using hk

/-! ## A section and what follows it -/

theorem holds_read_bind {f : σ → β} {k : β → Prog σ α} {s : σ} :
    (read f >>= k).Holds R G Q s ↔
      ∀ t, R s t → G t t ∧ (k (f t)).Holds R G Q t := Iff.rfl

theorem holds_write_bind {f : σ → σ} {k : Unit → Prog σ α} {s : σ} :
    (write f >>= k).Holds R G Q s ↔
      ∀ t, R s t → G t (f t) ∧ (k ()).Holds R G Q (f t) := Iff.rfl

theorem holds_atomic_bind {f : σ → β × σ} {k : β → Prog σ α} {s : σ} :
    (atomic f >>= k).Holds R G Q s ↔
      ∀ t, R s t → G t (f t).2 ∧ (k (f t).1).Holds R G Q (f t).2 := Iff.rfl

theorem holds_attempt_bind {f : σ → Except String β × σ} {k : β → Prog σ α} {s : σ} :
    (attempt f >>= k).Holds R G Q s ↔
      ∀ t, R s t → G t (f t).2 ∧
        match (f t).1 with
        | .ok b => (k b).Holds R G Q (f t).2
        | .error e => Q (.error e) (f t).2 := by
  constructor
  · intro h t ht
    obtain ⟨hg, hk⟩ := h t ht
    refine ⟨hg, ?_⟩
    cases hr : (f t).1 with
    | ok b => simpa [hr, Prog.bind] using hk
    | error e => simpa [hr, Prog.bind, Holds] using hk
  · intro h t ht
    obtain ⟨hg, hk⟩ := h t ht
    refine ⟨hg, ?_⟩
    cases hr : (f t).1 with
    | ok b => simpa [hr, Prog.bind] using hk
    | error e => simpa [hr, Prog.bind, Holds] using hk

theorem bind_assoc' {γ : Type} (p : Prog σ α) (f : α → Prog σ β) (g : β → Prog σ γ) :
    (p >>= f) >>= g = p >>= fun a => f a >>= g := by
  show (p.bind f).bind g = p.bind fun a => (f a).bind g
  induction p with
  | ret a => rfl
  | fail e => rfl
  | sect act next ih =>
    show Prog.sect act _ = Prog.sect act _
    congr 1
    funext s
    exact ih s

/-! ## Soundness for a program run alone -/

theorem run_bind {p : Prog σ α} {k : α → Prog σ β} :
    ∀ {s : σ}, (p >>= k).run s =
      match p.run s with
      | (.ok a, s') => (k a).run s'
      | (.error e, s') => (.error e, s') := by
  induction p with
  | ret a => exact rfl
  | fail e => exact rfl
  | sect f g ih =>
    intro s
    exact ih s

@[simp] theorem run_pure {a : α} {s : σ} : (pure a : Prog σ α).run s = (.ok a, s) := rfl

@[simp] theorem run_read {f : σ → α} {s : σ} : (read f).run s = (.ok (f s), s) := rfl

@[simp] theorem run_atomic {f : σ → α × σ} {s : σ} :
    (atomic f).run s = (.ok (f s).1, (f s).2) := rfl

@[simp] theorem run_attempt {f : σ → Except String α × σ} {s : σ} :
    (attempt f).run s = f s := by
  show Prog.run (match (f s).1 with | .ok a => .ret a | .error e => .fail e) (f s).2 = f s
  cases h : f s with
  | mk r t => cases r <;> rfl

/-- Without interference, `Holds` describes the run: the passed states form a
`G`-chain from `s`, and the outcome is in `Q`. -/
theorem run_of_holds {p : Prog σ α} :
    ∀ {s : σ}, p.Holds Eq G Q s →
      (s :: p.trace s).IsChain G ∧ Q (p.run s).1 (p.run s).2 := by
  induction p with
  | ret a => exact fun h => ⟨by simp [trace], h⟩
  | fail e => exact fun h => ⟨by simp [trace], h⟩
  | sect f k ih =>
    intro s h
    obtain ⟨hg, hk⟩ := h s rfl
    obtain ⟨hc, hq⟩ := ih s hk
    exact ⟨List.IsChain.cons_cons hg hc, hq⟩

/-- The states passed through satisfy whatever the guarantee says of the state
a section leaves. -/
theorem trace_of_holds {p : Prog σ α} {I : σ → Prop} :
    ∀ {s : σ}, p.Holds Eq (fun _ t => I t) Q s → ∀ t ∈ p.trace s, I t := by
  induction p with
  | ret a => exact fun _ t ht => by simp [trace] at ht
  | fail e => exact fun _ t ht => by simp [trace] at ht
  | sect f k ih =>
    intro s h t ht
    obtain ⟨hg, hk⟩ := h s rfl
    rcases List.mem_cons.mp ht with rfl | ht
    · exact hg
    · exact ih s hk t ht

theorem Holds.accumulate_from (htrans : ∀ s t u, G s t → G t u → G s u) {s₀ : σ}
    {p : Prog σ α} :
    ∀ {s : σ}, G s₀ s → p.Holds Eq G Q s →
      p.Holds Eq (fun _ t => G s₀ t) (fun r t => Q r t ∧ G s₀ t) s := by
  induction p with
  | ret a => exact fun h₀ hp => ⟨hp, h₀⟩
  | fail e => exact fun h₀ hp => ⟨hp, h₀⟩
  | sect f k ih =>
    rintro s h₀ hp _ rfl
    obtain ⟨hg, hk⟩ := hp s rfl
    have h₁ : G s₀ (f s) := htrans _ _ _ h₀ hg
    exact ⟨h₁, ih s h₁ hk⟩

theorem Holds.accumulate (hrefl : ∀ s, G s s) (htrans : ∀ s t u, G s t → G t u → G s u)
    {p : Prog σ α} {s : σ} (h : p.Holds Eq G Q s) :
    p.Holds Eq (fun _ t => G s t) (fun r t => Q r t ∧ G s t) s :=
  Holds.accumulate_from htrans (hrefl s) h

theorem outcome_of_holds {p : Prog σ α} {s : σ} (h : p.Holds Eq G Q s) :
    Q (p.run s).1 (p.run s).2 := (run_of_holds h).2

theorem run_related (hrefl : ∀ s, G s s) (htrans : ∀ s t u, G s t → G t u → G s u)
    {p : Prog σ α} {s : σ} (h : p.Holds (fun _ _ => True) G (fun _ _ => True) s) :
    G s (p.run s).2 := by
  have halone : p.Holds Eq G (fun _ _ => True) s :=
    h.mono (fun _ _ _ => trivial) (fun _ _ hg => hg) (fun _ _ _ => trivial)
  exact (outcome_of_holds (halone.accumulate hrefl htrans)).2

end Prog

/-! ## Serial sessions

Operations served one after the other, each to its end. -/

section Serial

variable {σ Op α : Type}

/-- States between the operations of a session that starts in `s₀` and serves
only operations that meet `Ok` in the state they start from. -/
inductive Serial (code : Op → Prog σ α) (Ok : Op → σ → Prop) (s₀ : σ) : σ → Prop
  | init : Serial code Ok s₀ s₀
  | serve {s : σ} (o : Op) : Serial code Ok s₀ s → Ok o s →
      Serial code Ok s₀ ((code o).run s).2

variable {code : Op → Prog σ α} {Ok : Op → σ → Prop} {s₀ : σ}

theorem Serial.invariant {I : σ → Prop} (h₀ : I s₀)
    (hop : ∀ o s, I s → Ok o s → I ((code o).run s).2)
    {s : σ} (h : Serial code Ok s₀ s) : I s := by
  induction h with
  | init => exact h₀
  | serve o _ hok ih => exact hop o _ ih hok

def serveAll (code : Op → Prog σ α) : List Op → σ → σ
  | [], s => s
  | o :: os, s => serveAll code os ((code o).run s).2

theorem serveAll_append (os os' : List Op) :
    ∀ s : σ, serveAll code (os ++ os') s = serveAll code os' (serveAll code os s) := by
  induction os with
  | nil => exact fun _ => rfl
  | cons o os ih => exact fun s => ih _

theorem Serial.serveAll (hok : ∀ o s, Ok o s) (os : List Op) :
    ∀ {s : σ}, Serial code Ok s₀ s → Serial code Ok s₀ (serveAll code os s) := by
  induction os with
  | nil => exact fun h => h
  | cons o os ih => exact fun h => ih (h.serve o (hok o _))

/-- Every operation of the list meets `Ok` in the state it is served in. -/
def AllServed (code : Op → Prog σ α) (Ok : Op → σ → Prop) : List Op → σ → Prop
  | [], _ => True
  | o :: os, s => Ok o s ∧ AllServed code Ok os ((code o).run s).2

theorem Serial.of_allServed (os : List Op) :
    ∀ {s : σ}, Serial code Ok s₀ s → AllServed code Ok os s →
      Serial code Ok s₀ (Foundation.serveAll code os s) := by
  induction os with
  | nil => exact fun h _ => h
  | cons o os ih => exact fun h hok => ih (h.serve o hok.1) hok.2

def tally (code : Op → Prog σ α) (cost : Op → σ → σ → ℕ) : List Op → σ → ℕ
  | [], _ => 0
  | o :: os, s => cost o s ((code o).run s).2 + tally code cost os ((code o).run s).2

end Serial

end OpenObs.Foundation

/-!
# What a program has seen

A program that only reads decides by the states it has seen, one for each section, while others
may change everything between them. `Sees Q p seen` says that whatever is seen from now on, `p`
ends in an answer that stands with all that was seen as `Q` demands.
-/

namespace OpenObs.Foundation.Prog

variable {σ α β : Type}

def Sees (Q : List σ → α → Prop) : Prog σ α → List σ → Prop
  | .ret a, seen => Q seen a
  | .fail _, _ => True
  | .sect _ k, seen => ∀ s, (k s).Sees Q (seen ++ [s])

variable {Q : List σ → α → Prop} {seen : List σ}

@[simp] theorem sees_pure {a : α} : (pure a : Prog σ α).Sees Q seen ↔ Q seen a := Iff.rfl

@[simp] theorem sees_throw {e : String} : (throw e : Prog σ α).Sees Q seen := trivial

@[simp] theorem sees_read {f : σ → α} : (read f).Sees Q seen ↔ ∀ s, Q (seen ++ [s]) (f s) := Iff.rfl

theorem sees_attempt {f : σ → Except String α × σ} :
    (attempt f).Sees Q seen ↔ ∀ s a, (f s).1 = .ok a → Q (seen ++ [s]) a := by
  constructor
  · intro h s a ha
    have hs : Sees Q (match (f s).1 with | .ok a => .ret a | .error e => .fail e) (seen ++ [s]) :=
      h s
    rw [ha] at hs
    exact hs
  · intro h s
    change Sees Q (match (f s).1 with | .ok a => .ret a | .error e => .fail e) (seen ++ [s])
    cases hs : (f s).1 with
    | ok a => exact h s a hs
    | error e => trivial

theorem Sees.mono {Q' : List σ → α → Prop} (hQ : ∀ seen a, Q seen a → Q' seen a) {p : Prog σ α} :
    ∀ {seen : List σ}, p.Sees Q seen → p.Sees Q' seen := by
  induction p with
  | ret a => exact fun h => hQ _ a h
  | fail e => exact fun _ => trivial
  | sect f k ih => exact fun h s => ih s (h s)

theorem Sees.bind {Q' : List σ → β → Prop} {k : α → Prog σ β} {p : Prog σ α} :
    ∀ {seen : List σ}, p.Sees (fun seen a => (k a).Sees Q' seen) seen → (p >>= k).Sees Q' seen := by
  change ∀ {seen : List σ}, _ → (p.bind k).Sees Q' seen
  induction p with
  | ret a => exact fun h => h
  | fail e => exact fun _ => trivial
  | sect f g ih => exact fun h s => ih s (h s)

end OpenObs.Foundation.Prog
