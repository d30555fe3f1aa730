import OpenObs.Foundation.Pool

/-!
# One at a time

An operation that marks itself as busy before its first `await`, gives up if the
mark is set, and removes the mark in a `finally`. In a pool at most one such
operation is past the mark, and the mark stands as long as it is.
-/

namespace OpenObs.Foundation

namespace Prog

variable {σ α β : Type}

/-- `try … finally`: `f` runs whether the body returns or throws. -/
def finalize : Prog σ α → (σ → σ) → Prog σ α
  | .ret a, f => .sect f fun _ => .ret a
  | .fail e, f => .sect f fun _ => .fail e
  | .sect g k, f => .sect g fun s => (k s).finalize f

/-- The body under a mark; `skip` is returned where the mark is already set. -/
def exclusive (busy : σ → Bool) (enter leave : σ → σ) (skip : α) (body : Prog σ α) : Prog σ α :=
  .sect (fun s => if busy s then s else enter s)
    fun s => if busy s then .ret skip else body.finalize leave

theorem run_finalize {p : Prog σ α} {f : σ → σ} :
    ∀ {s : σ}, (p.finalize f).run s = ((p.run s).1, f (p.run s).2) := by
  induction p with
  | ret a => exact rfl
  | fail e => exact rfl
  | sect g k ih =>
    intro s
    exact ih s

variable {busy : σ → Bool} {enter leave : σ → σ} {skip : α} {body : Prog σ α} {s : σ}

theorem run_exclusive (h : busy s = false) :
    (exclusive busy enter leave skip body).run s =
      ((body.run (enter s)).1, leave (body.run (enter s)).2) := by
  show (if busy s then _ else _ : Prog σ α).run (if busy s then _ else _) = _
  rw [h]
  exact run_finalize

theorem run_exclusive_busy (h : busy s = true) :
    (exclusive busy enter leave skip body).run s = (.ok skip, s) := by
  show (if busy s then _ else _ : Prog σ α).run (if busy s then _ else _) = _
  rw [h]
  rfl

variable {R G : σ → σ → Prop} {Q : Except String α → σ → Prop}

theorem Holds.finalize {p : Prog σ α} {f : σ → σ} (hf : ∀ s, G s (f s)) :
    ∀ {s : σ}, p.Holds R G (fun _ _ => True) s →
      (p.finalize f).Holds R G (fun _ _ => True) s := by
  induction p with
  | ret a => exact fun _ t _ => ⟨hf t, trivial⟩
  | fail e => exact fun _ t _ => ⟨hf t, trivial⟩
  | sect g k ih =>
    intro s h t ht
    exact ⟨(h t ht).1, ih t (h t ht).2⟩

theorem Holds.exclusive (hrefl : ∀ s, G s s) (henter : ∀ s, G s (enter s))
    (hleave : ∀ s, G s (leave s))
    (hbody : ∀ t, R s t → body.Holds R G (fun _ _ => True) (enter t)) :
    (exclusive busy enter leave skip body).Holds R G (fun _ _ => True) s := by
  intro t ht
  dsimp only
  cases busy t with
  | true => exact ⟨hrefl t, trivial⟩
  | false => exact ⟨henter t, (hbody t ht).finalize hleave⟩

end Prog

/-! ## In a pool -/

section Mark

variable {σ Op α : Type}

/-- What is left of a program under the mark: a body that keeps the mark, then the section
that removes it. -/
def Inside (busy : σ → Bool) (leave : σ → σ) (p : Prog σ α) : Prop :=
  ∃ body : Prog σ α, p = body.finalize leave ∧
    ∀ s, body.Holds (fun _ _ => True) (fun s t => busy t = busy s) (fun _ _ => True) s

def KeepsMark (busy : σ → Bool) (p : Prog σ α) : Prop :=
  ∀ s, p.Holds (fun _ _ => True) (fun s t => busy t = busy s) (fun _ _ => True) s

/-- Some operations of a pool are under the mark, and the others leave it alone. -/
structure Marked (code : Op → Prog σ α) (mine : Op → Prop) (busy : σ → Bool)
    (enter leave : σ → σ) (skip : α) (body : Op → Prog σ α) : Prop where
  enters : ∀ s, busy (enter s) = true
  leaves : ∀ s, busy (leave s) = false
  code_mine : ∀ o, mine o → code o = Prog.exclusive busy enter leave skip (body o)
  body_keeps : ∀ o, mine o → KeepsMark busy (body o)
  other_keeps : ∀ o, ¬ mine o → KeepsMark busy (code o)

def Past (code : Op → Prog σ α) (busy : σ → Bool) (leave : σ → σ) (th : Thread σ Op α) : Prop :=
  th.prog ≠ code th.op ∧ Inside busy leave th.prog

/-- An operation under the mark has not begun, is past the mark, or is through; at most one
is past it, and the mark is set while it is. -/
structure Exclusive (code : Op → Prog σ α) (mine : Op → Prop) (busy : σ → Bool)
    (leave : σ → σ) (c : Config σ Op α) : Prop where
  place : ∀ (i : ℕ) (th : Thread σ Op α), c.threads[i]? = some th → mine th.op →
    th.prog = code th.op ∨ th.prog.finished = true ∨ Inside busy leave th.prog
  other : ∀ (i : ℕ) (th : Thread σ Op α), c.threads[i]? = some th → ¬ mine th.op →
    KeepsMark busy th.prog
  set : ∀ (i : ℕ) (th : Thread σ Op α), c.threads[i]? = some th → mine th.op →
    Past code busy leave th → busy c.st = true
  one : ∀ (i j : ℕ) (th th' : Thread σ Op α), c.threads[i]? = some th →
    c.threads[j]? = some th' → mine th.op → mine th'.op →
    Past code busy leave th → Past code busy leave th' → i = j

variable {code : Op → Prog σ α} {mine : Op → Prop} {busy : σ → Bool} {enter leave : σ → σ}
  {skip : α} {body : Op → Prog σ α} {c c' : Config σ Op α}

theorem not_inside_of_finished {p : Prog σ α} (h : p.finished = true) :
    ¬ Inside busy leave p := by
  rintro ⟨body, rfl, -⟩
  cases body <;> cases h

theorem KeepsMark.step {f : σ → σ} {k : σ → Prog σ α} (h : KeepsMark busy (.sect f k)) (s : σ) :
    busy (f s) = busy s ∧ KeepsMark busy (k s) := by
  refine ⟨(h s s trivial).1, fun t => ?_⟩
  exact (h s s trivial).2.shift (fun _ _ _ _ _ => trivial) (fun _ _ _ _ _ => trivial) trivial

theorem Inside.step {f : σ → σ} {k : σ → Prog σ α} (h : Inside busy leave (.sect f k)) (s : σ) :
    (k s).finished = true ∨ busy (f s) = busy s ∧ Inside busy leave (k s) := by
  obtain ⟨body, heq, hkeeps⟩ := h
  cases body with
  | ret a =>
    cases heq
    exact Or.inl rfl
  | fail e =>
    cases heq
    exact Or.inl rfl
  | sect g k' =>
    cases heq
    obtain ⟨hbusy, hrest⟩ := KeepsMark.step hkeeps s
    exact Or.inr ⟨hbusy, k' s, rfl, hrest⟩

/-- A section under the mark leaves it alone, or is the last one and removes it. -/
theorem Marked.section_inside (hm : Marked code mine busy enter leave skip body) {f : σ → σ}
    {k : σ → Prog σ α} (h : Inside busy leave (.sect f k)) (s : σ) :
    busy (f s) = false ∨ busy (f s) = busy s ∧ Inside busy leave (k s) := by
  obtain ⟨body, heq, hkeeps⟩ := h
  cases body with
  | ret a =>
    cases heq
    exact Or.inl (hm.leaves s)
  | fail e =>
    cases heq
    exact Or.inl (hm.leaves s)
  | sect g k' =>
    cases heq
    obtain ⟨hbusy, hrest⟩ := KeepsMark.step hkeeps s
    exact Or.inr ⟨hbusy, k' s, rfl, hrest⟩

/-- The first section of an operation sets a mark that is free. -/
theorem Marked.not_inside (hm : Marked code mine busy enter leave skip body) {o : Op}
    (hmine : mine o) {s : σ} (hfree : busy s = false) : ¬ Inside busy leave (code o) := by
  intro hin
  rw [hm.code_mine o hmine, Prog.exclusive] at hin
  have hset : busy (if busy s then s else enter s) = true := by
    rw [hfree]
    exact hm.enters s
  rcases hm.section_inside hin s with hend | ⟨hkeeps, -⟩
  · rw [hset] at hend
    cases hend
  · rw [hset, hfree] at hkeeps
    cases hkeeps

theorem Exclusive.start (hm : Marked code mine busy enter leave skip body)
    (h : Exclusive code mine busy leave c) {o : Op} (hn : c.next code (.start o) = some c') :
    Exclusive code mine busy leave c' := by
  obtain ⟨hst, -⟩ := Config.next_start hn
  obtain ⟨-, hnew⟩ := Config.next_start_threads hn
  have hpast : ∀ (j : ℕ) (th : Thread σ Op α), c'.threads[j]? = some th →
      Past code busy leave th → c.threads[j]? = some th := by
    intro j th hj hpast
    rcases hnew j th hj with hold | rfl
    · exact hold
    · exact absurd rfl hpast.1
  constructor
  case place =>
    intro j th hj hmine
    rcases hnew j th hj with hold | rfl
    · exact h.place j th hold hmine
    · exact Or.inl rfl
  case other =>
    intro j th hj hmine
    rcases hnew j th hj with hold | rfl
    · exact h.other j th hold hmine
    · exact hm.other_keeps o hmine
  case set =>
    intro j th hj hmine hp
    rw [hst]
    exact h.set j th (hpast j th hj hp) hmine hp
  case one =>
    intro j j' th th' hj hj' hmine hmine' hp hp'
    exact h.one j j' th th' (hpast j th hj hp) (hpast j' th' hj' hp') hmine hmine' hp hp'

/-- What a section does: it leaves the mark alone, it sets the mark where nobody has, or it is
the last one of the thread that had set it. -/
theorem Exclusive.step_cases (hm : Marked code mine busy enter leave skip body)
    (h : Exclusive code mine busy leave c) {i : ℕ} {o : Op} {f : σ → σ} {k : σ → Prog σ α}
    (hi : c.threads[i]? = some ⟨o, .sect f k⟩) :
    (busy (f c.st) = busy c.st ∧ (mine o → Past code busy leave ⟨o, k c.st⟩ →
      Past code busy leave ⟨o, .sect f k⟩)) ∨
    (busy c.st = false ∧ busy (f c.st) = true) ∨
    (mine o ∧ Past code busy leave ⟨o, .sect f k⟩ ∧ (k c.st).finished = true) := by
  by_cases hmine : mine o
  · by_cases hfresh : Prog.sect f k = code o
    · rw [hm.code_mine o hmine] at hfresh
      cases hfresh
      dsimp only
      cases hbusy : busy c.st with
      | true =>
        refine Or.inl ⟨hbusy, fun _ hpast => ?_⟩
        exact absurd hpast.2 (not_inside_of_finished rfl)
      | false => exact Or.inr (Or.inl ⟨rfl, hm.enters _⟩)
    · rcases h.place i _ hi hmine with hcode | hdone | hin
      · exact absurd hcode hfresh
      · cases hdone
      · rcases hin.step c.st with hdone | ⟨hbusy, -⟩
        · exact Or.inr (Or.inr ⟨hmine, ⟨hfresh, hin⟩, hdone⟩)
        · exact Or.inl ⟨hbusy, fun _ _ => ⟨hfresh, hin⟩⟩
  · exact Or.inl ⟨((h.other i _ hi hmine).step c.st).1, fun hmine' => absurd hmine' hmine⟩

theorem Exclusive.step (hm : Marked code mine busy enter leave skip body)
    (h : Exclusive code mine busy leave c) {i : ℕ} (hn : c.next code (.step i) = some c') :
    Exclusive code mine busy leave c' := by
  obtain ⟨o, f, k, hi, hst, hi', hrest⟩ := Config.next_step_threads hn
  have hcases := h.step_cases hm hi
  rw [← hst] at hcases
  -- a thread of the new pool is an old one, or the one that moved
  have hsplit : ∀ (j : ℕ) (th : Thread σ Op α), c'.threads[j]? = some th →
      (j ≠ i ∧ c.threads[j]? = some th) ∨ (j = i ∧ th = ⟨o, k c.st⟩) := by
    intro j th hj
    by_cases hji : j = i
    · subst hji
      cases hi'.symm.trans hj
      exact Or.inr ⟨rfl, rfl⟩
    · rw [hrest j hji] at hj
      exact Or.inl ⟨hji, hj⟩
  have hlone : ∀ (j : ℕ) (th : Thread σ Op α), j ≠ i → c.threads[j]? = some th → mine th.op →
      Past code busy leave th → busy c'.st = true ∧
        ¬ (mine o ∧ Past code busy leave ⟨o, k c.st⟩) := by
    intro j th hji hj hmine hp
    have hset := h.set j th hj hmine hp
    rcases hcases with ⟨hbusy, hpast⟩ | ⟨hfree, -⟩ | ⟨hmine', hpast, -⟩
    · refine ⟨hbusy.trans hset, fun hnew => hji ?_⟩
      exact h.one j i th _ hj hi hmine hnew.1 hp (hpast hnew.1 hnew.2)
    · rw [hset] at hfree
      cases hfree
    · exact absurd (h.one j i th _ hj hi hmine hmine' hp hpast) hji
  constructor
  case place =>
    intro j th hj hmine
    rcases hsplit j th hj with ⟨-, hold⟩ | ⟨rfl, rfl⟩
    · exact h.place j th hold hmine
    · by_cases hfresh : Prog.sect f k = code o
      · rw [hm.code_mine o hmine] at hfresh
        cases hfresh
        dsimp only
        cases busy c.st with
        | true => exact Or.inr (Or.inl rfl)
        | false => exact Or.inr (Or.inr ⟨body o, rfl, hm.body_keeps o hmine⟩)
      · rcases h.place j _ hi hmine with hcode | hdone | hin
        · exact absurd hcode hfresh
        · cases hdone
        · exact Or.inr ((hin.step c.st).imp id (·.2))
  case other =>
    intro j th hj hmine
    rcases hsplit j th hj with ⟨-, hold⟩ | ⟨rfl, rfl⟩
    · exact h.other j th hold hmine
    · exact ((h.other j _ hi hmine).step c.st).2
  case set =>
    intro j th hj hmine hp
    rcases hsplit j th hj with ⟨hji, hold⟩ | ⟨rfl, rfl⟩
    · exact (hlone j th hji hold hmine hp).1
    · rcases hcases with ⟨hbusy, hpast⟩ | ⟨-, hset⟩ | ⟨-, -, hdone⟩
      · exact hbusy.trans (h.set j _ hi hmine (hpast hmine hp))
      · exact hset
      · exact absurd hp.2 (not_inside_of_finished hdone)
  case one =>
    intro j j' th th' hj hj' hmine hmine' hp hp'
    rcases hsplit j th hj with ⟨hji, hold⟩ | ⟨rfl, rfl⟩
    · rcases hsplit j' th' hj' with ⟨-, hold'⟩ | ⟨rfl, rfl⟩
      · exact h.one j j' th th' hold hold' hmine hmine' hp hp'
      · exact absurd ⟨hmine', hp'⟩ (hlone j th hji hold hmine hp).2
    · rcases hsplit j' th' hj' with ⟨hji', hold'⟩ | ⟨rfl, rfl⟩
      · exact absurd ⟨hmine, hp⟩ (hlone j' th' hji' hold' hmine' hp').2
      · rfl

/-- **One at a time.** In every reached pool at most one operation is past its mark. -/
theorem Run.exclusive {Ok : Config σ Op α → Label Op → Prop} {c₀ : Config σ Op α}
    (hm : Marked code mine busy enter leave skip body) (h₀ : c₀.threads = [])
    (h : Run code Ok c₀ c) : Exclusive code mine busy leave c := by
  induction h with
  | init =>
    have hnone (i : ℕ) (th : Thread σ Op α) : c₀.threads[i]? ≠ some th := by
      rw [h₀]
      exact fun h => by cases h
    exact ⟨fun i th hi => absurd hi (hnone i th), fun i th hi => absurd hi (hnone i th),
      fun i th hi => absurd hi (hnone i th), fun i _ th _ hi => absurd hi (hnone i th)⟩
  | @tail c c' l _ _ hn ih =>
    cases l with
    | start o => exact ih.start hm hn
    | step i => exact ih.step hm hn

/-- The mark is not left behind: while it is set, an operation is past it. -/
theorem Run.held {Ok : Config σ Op α → Label Op → Prop} {c₀ : Config σ Op α}
    (hm : Marked code mine busy enter leave skip body) (h₀ : c₀.threads = [])
    (hfree : busy c₀.st = false) (h : Run code Ok c₀ c) (hbusy : busy c.st = true) :
    ∃ th ∈ c.threads, mine th.op ∧ Past code busy leave th := by
  induction h with
  | init =>
    rw [hfree] at hbusy
    cases hbusy
  | @tail c c' l hr hok hn ih =>
    cases l with
    | start o =>
      obtain ⟨hst, hth⟩ := Config.next_start hn
      rw [hst] at hbusy
      obtain ⟨th, hmem, hpast⟩ := ih hbusy
      exact ⟨th, by rw [hth]; exact List.mem_append_left _ hmem, hpast⟩
    | step i =>
      have hplaces := hr.exclusive hm h₀
      obtain ⟨o, f, k, hi, hst, hi', hother⟩ := Config.next_step_threads hn
      rw [hst] at hbusy
      by_cases hmine : mine o
      · -- the thread that moved is past the mark, or another one was before
        have hmoved : Inside busy leave (k c.st) → ∃ th ∈ c'.threads, mine th.op ∧
            Past code busy leave th := fun hin =>
          ⟨_, List.mem_of_getElem? hi', hmine,
            fun heq => hm.not_inside hmine hfree (heq ▸ hin), hin⟩
        rcases hplaces.place i _ hi hmine with hcode | hdone | hin
        · dsimp only at hcode
          rw [hm.code_mine o hmine] at hcode
          cases hcode
          cases hold : busy c.st with
          | false =>
            refine hmoved ?_
            dsimp only
            rw [hold]
            exact ⟨body o, rfl, hm.body_keeps o hmine⟩
          | true =>
            obtain ⟨th, hmem, hpast⟩ := ih hold
            refine ⟨th, Config.mem_of_unmoved hi hother hmem ?_, hpast⟩
            rintro rfl
            exact hpast.2.1 (hm.code_mine o hmine).symm
        · cases hdone
        · rcases hm.section_inside hin c.st with hend | ⟨-, hin'⟩
          · rw [hbusy] at hend
            cases hend
          · exact hmoved hin'
      · rw [((hplaces.other i _ hi hmine).step c.st).1] at hbusy
        obtain ⟨th, hmem, hpast⟩ := ih hbusy
        refine ⟨th, Config.mem_of_unmoved hi hother hmem ?_, hpast⟩
        rintro rfl
        exact hmine hpast.1

end Mark

end OpenObs.Foundation
