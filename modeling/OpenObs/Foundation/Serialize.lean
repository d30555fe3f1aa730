import OpenObs.Foundation.Pool

/-!
# Serial histories

A program that changes the state in its last section only commits there.
-/

namespace OpenObs.Foundation

namespace Prog

variable {σ α β : Type}

def outcome : Prog σ α → Option (Except String α)
  | .ret a => some (.ok a)
  | .fail e => some (.error e)
  | .sect _ _ => none

def CommitsLast : Prog σ α → Prop
  | .ret _ => True
  | .fail _ => True
  | .sect f k => ∀ s, (k s).finished = true ∨ f s = s ∧ (k s).CommitsLast

theorem run_of_outcome {p : Prog σ α} {r : Except String α} (h : p.outcome = some r) (s : σ) :
    p.run s = (r, s) := by
  cases p <;> cases h <;> rfl

theorem outcome_of_finished {p : Prog σ α} (h : p.finished = true) : ∃ r, p.outcome = some r := by
  cases p with
  | ret a => exact ⟨_, rfl⟩
  | fail e => exact ⟨_, rfl⟩
  | sect f k => cases h

theorem CommitsLast.read_bind {f : σ → β} {k : β → Prog σ α} (h : ∀ b, (k b).CommitsLast) :
    (Prog.read f >>= k).CommitsLast :=
  fun s => Or.inr ⟨rfl, h (f s)⟩

theorem CommitsLast.attempt {f : σ → Except String α × σ} : (Prog.attempt f).CommitsLast := by
  intro s
  dsimp only
  cases (f s).1 <;> exact Or.inl rfl

theorem CommitsLast.write {f : σ → σ} : (Prog.write f).CommitsLast := fun _ => Or.inl rfl

theorem CommitsLast.map {p : Prog σ α} (g : α → β) :
    p.CommitsLast → (p >>= fun a => pure (g a)).CommitsLast := by
  induction p with
  | ret a => exact fun _ => trivial
  | fail e => exact fun _ => trivial
  | sect f k ih =>
    intro h s
    rcases h s with hdone | ⟨hread, hrest⟩
    · refine Or.inl ?_
      show ((k s).bind _).finished = true
      cases hk : k s with
      | ret a => rfl
      | fail e => rfl
      | sect f' k' =>
        rw [hk] at hdone
        cases hdone
    · exact Or.inr ⟨hread, ih s hrest⟩

end Prog

variable {σ Op α : Type}

inductive Served (code : Op → Prog σ α) (s₀ : σ) : List (Op × Except String α) → σ → Prop
  | init : Served code s₀ [] s₀
  | serve {h : List (Op × Except String α)} {s : σ} (o : Op) : Served code s₀ h s →
      Served code s₀ (h ++ [(o, ((code o).run s).1)]) ((code o).run s).2

section History

variable {code : Op → Prog σ α} {s₀ s t : σ} {h h' : List (Op × Except String α)}

theorem Served.serve_of_run {o : Op} {r : Except String α} (hs : Served code s₀ h s)
    (hrun : (code o).run s = (r, t)) : Served code s₀ (h ++ [(o, r)]) t := by
  have hnext := hs.serve o
  rw [hrun] at hnext
  exact hnext

theorem Served.eq_serveAll (hs : Served code s₀ h s) :
    s = serveAll code (h.map Prod.fst) s₀ := by
  induction hs with
  | init => rfl
  | serve o _ ih =>
    rw [List.map_append, List.map_singleton, serveAll_append, ← ih]
    rfl

theorem Served.filter {P : Op × Except String α → Bool}
    (hP : ∀ o s, P (o, ((code o).run s).1) = false → ((code o).run s).2 = s)
    (hs : Served code s₀ h s) : Served code s₀ (h.filter P) s := by
  induction hs with
  | init => exact .init
  | @serve h s o _ ih =>
    rw [List.filter_append, List.filter_singleton]
    cases hkeep : P (o, ((code o).run s).1) with
    | true => exact ih.serve o
    | false =>
      rw [hP o s hkeep, Bool.cond_false, List.append_nil]
      exact ih

end History

/-! ## In a pool -/

def Config.outcomes (c : Config σ Op α) : List (Op × Except String α) :=
  c.threads.filterMap fun th => th.prog.outcome.map (th.op, ·)

def Undisturbed (code : Op → Prog σ α) (c : Config σ Op α) (l : Label Op) : Prop :=
  ∀ i c', l = .step i → c.next code l = some c' → c'.st ≠ c.st →
    ∀ j th, j ≠ i → c.threads[j]? = some th → th.prog = code th.op ∨ th.prog.finished = true

section Pool

variable {code : Op → Prog σ α} {c c' : Config σ Op α} {s₀ : σ}

theorem undisturbed_start {o : Op} : Undisturbed code c (.start o) := by
  intro i c' hl
  cases hl

theorem undisturbed_step {i : ℕ} (h : ∀ j th, j ≠ i → c.threads[j]? = some th →
    th.prog = code th.op ∨ th.prog.finished = true) : Undisturbed code c (.step i) := by
  intro i' c' hl _ _
  cases hl
  exact h

theorem Config.outcomes_start {o : Op} (hth : c'.threads = c.threads ++ [⟨o, code o⟩]) :
    c'.outcomes = c.outcomes ++ ((code o).outcome.map (o, ·)).toList := by
  rw [Config.outcomes, hth, List.filterMap_append, ← Config.outcomes]
  cases hout : (code o).outcome with
  | none => rw [List.filterMap_cons_none (by rw [hout]; rfl)]; rfl
  | some r => rw [List.filterMap_cons_some (by rw [hout]; rfl)]; rfl

theorem Config.outcomes_step {i : ℕ} {o : Op} {f : σ → σ} {k : σ → Prog σ α}
    (hi : c.threads[i]? = some ⟨o, .sect f k⟩)
    (hth : c'.threads = c.threads.set i ⟨o, k c.st⟩) :
    ((c.outcomes ++ ((k c.st).outcome.map (o, ·)).toList).Perm c'.outcomes) := by
  obtain ⟨hlt, hget⟩ := List.getElem?_eq_some_iff.mp hi
  obtain ⟨before, after, hsplit, hlen, hset⟩ : ∃ before after,
      c.threads = before ++ c.threads[i] :: after ∧ before.length = i ∧
        c.threads.set i ⟨o, k c.st⟩ = before ++ ⟨o, k c.st⟩ :: after := List.exists_of_set hlt
  rw [hget] at hsplit
  rw [Config.outcomes, Config.outcomes, hth, hset, hsplit, List.filterMap_append,
    List.filterMap_append, List.filterMap_cons_none (by rfl), List.append_assoc]
  refine List.Perm.append_left _ ?_
  cases hout : (k c.st).outcome with
  | none =>
    rw [List.filterMap_cons_none (by rw [hout]; rfl)]
    simp
  | some r =>
    rw [List.filterMap_cons_some (by rw [hout]; rfl)]
    exact (List.perm_append_singleton _ _)

def Current (code : Op → Prog σ α) (c : Config σ Op α) : Prop :=
  ∀ th ∈ c.threads, th.prog.CommitsLast ∧
    (th.prog.finished = false → th.prog.run c.st = (code th.op).run c.st)

theorem Current.start (hcode : ∀ o, (code o).CommitsLast) (h : Current code c) {o : Op}
    (hn : c.next code (.start o) = some c') : Current code c' := by
  obtain ⟨hst, -⟩ := Config.next_start hn
  intro th hmem
  rw [hst]
  rcases Config.mem_of_next_start hn hmem with hmem | rfl
  · exact h th hmem
  · exact ⟨hcode o, fun _ => rfl⟩

theorem Current.step (h : Current code c) {i : ℕ}
    (hok : Undisturbed code c (.step i)) (hn : c.next code (.step i) = some c') :
    Current code c' := by
  obtain ⟨o, f, k, hi, hst, hi', hother⟩ := Config.next_step_threads hn
  obtain ⟨hlast, hrun⟩ := h _ (List.mem_of_getElem? hi)
  intro th hmem
  rcases Config.mem_of_moved hi' hother hmem with rfl | ⟨j, hji, hj⟩
  · -- the thread that moved: it is through, or it has only read
    rcases hlast c.st with hdone | ⟨hread, hrest⟩
    · refine ⟨?_, fun hnot => ?_⟩
      · cases hk : k c.st with
        | ret a => trivial
        | fail e => trivial
        | sect f' k' =>
          rw [hk] at hdone
          cases hdone
      · rw [hdone] at hnot
        cases hnot
    · refine ⟨hrest, fun _ => ?_⟩
      have hsame : c'.st = c.st := hst.trans hread
      rw [hsame, ← hrun rfl]
      show (k c.st).run c.st = (k c.st).run (f c.st)
      rw [hread]
  · obtain ⟨hlast', hrun'⟩ := h th (List.mem_of_getElem? hj)
    by_cases hsame : c'.st = c.st
    · rw [hsame]
      exact ⟨hlast', hrun'⟩
    · refine ⟨hlast', fun hnot => ?_⟩
      rcases hok i c' rfl hn hsame j th hji hj with hfresh | hdone
      · rw [hfresh]
      · rw [hdone] at hnot
        cases hnot

/-- **Serialization.** What the pool has done is what the operations that have ended do one
after another, with the same results. -/
theorem Run.served (hcode : ∀ o, (code o).CommitsLast)
    (h : Run code (Undisturbed code) ⟨s₀, []⟩ c) :
    (∃ hist, hist.Perm c.outcomes ∧ Served code s₀ hist c.st) ∧ Current code c := by
  induction h with
  | init => exact ⟨⟨[], .nil, .init⟩, fun th hmem => by cases hmem⟩
  | @tail c c' l _ hok hn ih =>
    obtain ⟨⟨hist, hperm, hserved⟩, hcur⟩ := ih
    cases l with
    | start o =>
      obtain ⟨hst, hth⟩ := Config.next_start hn
      have hadd := Config.outcomes_start hth
      cases hfin : (code o).outcome with
      | none =>
        rw [hfin, Option.map_none, Option.toList_none, List.append_nil] at hadd
        exact ⟨⟨hist, hadd ▸ hperm, hst ▸ hserved⟩, hcur.start hcode hn⟩
      | some r =>
        -- a program without sections ends where it begins
        rw [hfin] at hadd
        refine ⟨⟨hist ++ [(o, r)], ?_, ?_⟩, hcur.start hcode hn⟩
        · rw [hadd]
          exact hperm.append_right _
        · rw [hst]
          exact hserved.serve_of_run (Prog.run_of_outcome hfin c.st)
    | step i =>
      obtain ⟨o, f, k, hi, hst, hth⟩ := Config.next_step hn
      have hadd := Config.outcomes_step hi hth
      obtain ⟨hlast, hrun⟩ := hcur _ (List.mem_of_getElem? hi)
      have hnow : (code o).run c.st = (k c.st).run c'.st := by
        rw [hst]
        exact (hrun rfl).symm
      cases hfin : (k c.st).outcome with
      | none =>
        refine ⟨⟨hist, ?_, ?_⟩, hcur.step hok hn⟩
        · rw [hfin, Option.map_none, Option.toList_none, List.append_nil] at hadd
          exact hperm.trans hadd
        · rcases hlast c.st with hdone | ⟨hread, -⟩
          · obtain ⟨r, hr⟩ := Prog.outcome_of_finished hdone
            rw [hfin] at hr
            cases hr
          · rw [hst, hread]
            exact hserved
      | some r =>
        refine ⟨⟨hist ++ [(o, r)], ?_, ?_⟩, hcur.step hok hn⟩
        · rw [hfin] at hadd
          exact (hperm.append_right _).trans hadd
        · rw [Prog.run_of_outcome hfin] at hnow
          exact hserved.serve_of_run hnow

end Pool

end OpenObs.Foundation

/-!
# Logs

A run together with what its operations came back with, in the order in which they ended. What a
log promises is what its last relevant entry says: an entry stands until a later one undoes it.
-/

namespace OpenObs.Foundation

/-! ## Entries that stand -/

section Stands

variable {α : Type} {P Undo : α → Prop} {log : List α} {a : α}

/-- Some entry in `P` has no entry after it that undoes it. -/
def Stands (P Undo : α → Prop) (log : List α) : Prop :=
  ∃ pre a post, log = pre ++ a :: post ∧ P a ∧ ∀ b ∈ post, ¬ Undo b

theorem not_stands_nil : ¬ Stands P Undo [] := by
  rintro ⟨pre, a, post, heq, -⟩
  simp at heq

theorem stands_append : Stands P Undo (log ++ [a]) ↔ P a ∨ Stands P Undo log ∧ ¬ Undo a := by
  constructor
  · rintro ⟨pre, b, post, heq, hb, hpost⟩
    rcases List.eq_nil_or_concat post with rfl | ⟨post, last, rfl⟩
    · obtain ⟨-, hlast⟩ := List.append_inj' heq rfl
      rw [(List.cons.inj hlast).1]
      exact Or.inl hb
    · rw [List.concat_eq_append, ← List.cons_append, ← List.append_assoc] at heq
      obtain ⟨hlog, hlast⟩ := List.append_inj' heq rfl
      rw [(List.cons.inj hlast).1]
      refine Or.inr ⟨⟨pre, b, post, hlog, hb, fun c hc => hpost c ?_⟩, hpost last ?_⟩
      · rw [List.concat_eq_append]
        exact List.mem_append_left _ hc
      · rw [List.concat_eq_append]
        exact List.mem_append_right _ (List.mem_singleton_self _)
  · rintro (ha | ⟨⟨pre, b, post, rfl, hb, hpost⟩, ha⟩)
    · exact ⟨log, a, [], rfl, ha, fun b hb => absurd hb List.not_mem_nil⟩
    · refine ⟨pre, b, post ++ [a], by rw [List.append_assoc, List.cons_append], hb, fun c hc => ?_⟩
      rcases List.mem_append.mp hc with hc | hc
      · exact hpost c hc
      · rw [List.mem_singleton.mp hc]
        exact ha

end Stands

/-! ## Runs with their logs -/

variable {σ Op α : Type} {code : Op → Prog σ α} {Ok : Config σ Op α → Label Op → Prop}
  {c₀ c c' : Config σ Op α} {log : List (Op × Except String α)}

def Config.ended (c' : Config σ Op α) : Label Op → List (Op × Except String α)
  | .start _ => (c'.threads.getLast?.bind fun th => th.prog.outcome.map (th.op, ·)).toList
  | .step i => (c'.threads[i]?.bind fun th => th.prog.outcome.map (th.op, ·)).toList

inductive Logged (code : Op → Prog σ α) (Ok : Config σ Op α → Label Op → Prop)
    (c₀ : Config σ Op α) : List (Op × Except String α) → Config σ Op α → Prop
  | init : Logged code Ok c₀ [] c₀
  | tail {log : List (Op × Except String α)} {c c' : Config σ Op α} (l : Label Op) :
      Logged code Ok c₀ log c → Ok c l → c.next code l = some c' →
      Logged code Ok c₀ (log ++ c'.ended l) c'

theorem Config.ended_start {o : Op} (hn : c.next code (.start o) = some c') :
    c'.ended (.start o) = ((code o).outcome.map (o, ·)).toList := by
  rw [Config.ended, (Config.next_start hn).2, List.getLast?_concat]
  rfl

theorem Config.ended_step {i : ℕ} {th : Thread σ Op α} (hi : c'.threads[i]? = some th) :
    c'.ended (.step i : Label Op) = (th.prog.outcome.map (th.op, ·)).toList := by
  rw [Config.ended, hi]
  rfl

def Config.logOf (code : Op → Prog σ α) (c : Config σ Op α) :
    List (Label Op) → List (Op × Except String α)
  | [] => []
  | l :: ls =>
    match c.next code l with
    | some c' => c'.ended l ++ c'.logOf code ls
    | none => []

theorem Logged.of_exec {ls : List (Label Op)} : ∀ {log : List (Op × Except String α)}
    {c c' : Config σ Op α}, Logged code Ok c₀ log c → AllOk code Ok c ls →
      c.exec code ls = some c' → Logged code Ok c₀ (log ++ c.logOf code ls) c' := by
  induction ls with
  | nil =>
    intro log c c' h _ hexec
    cases hexec
    rw [Config.logOf, List.append_nil]
    exact h
  | cons l ls ih =>
    intro log c c' h hok hexec
    simp only [Config.exec] at hexec
    cases hn : c.next code l with
    | none => simp [hn] at hexec
    | some d =>
      rw [hn] at hexec
      have hrest := ih (h.tail l hok.1 hn) (hok.2 d hn) hexec
      rw [List.append_assoc] at hrest
      simp only [Config.logOf, hn]
      exact hrest

end OpenObs.Foundation
