import OpenObs.Foundation.Async

/-!
# Interleavings

A pool runs any number of programs over one state. A label either starts an operation or lets one
running program execute its next section; between two sections of a program the others may execute
theirs, in any order.
-/

namespace OpenObs.Foundation

structure Thread (σ Op α : Type) where
  op : Op
  prog : Prog σ α

structure Config (σ Op α : Type) where
  st : σ
  threads : List (Thread σ Op α)

inductive Label (Op : Type) : Type where
  | start (o : Op)
  | step (i : ℕ)

namespace Config

variable {σ Op α : Type}

/-- What a label does; `none` when the named thread has no section left. -/
def next (code : Op → Prog σ α) (c : Config σ Op α) : Label Op → Option (Config σ Op α)
  | .start o => some { c with threads := c.threads ++ [⟨o, code o⟩] }
  | .step i =>
    match c.threads[i]? with
    | some ⟨o, .sect f k⟩ =>
      some { st := f c.st, threads := c.threads.set i ⟨o, k c.st⟩ }
    | _ => none

def exec (code : Op → Prog σ α) (c : Config σ Op α) :
    List (Label Op) → Option (Config σ Op α)
  | [] => some c
  | l :: ls => (c.next code l).bind (exec code · ls)

/-- Every thread but `i` that has a section left runs an operation in `P`. -/
def others (c : Config σ Op α) (i : ℕ) (P : Op → Prop) : Prop :=
  ∀ (j : ℕ) (th : Thread σ Op α), j ≠ i → c.threads[j]? = some th →
    th.prog.finished = false → P th.op

theorem next_start {code : Op → Prog σ α} {c c' : Config σ Op α} {o : Op}
    (h : c.next code (.start o) = some c') :
    c'.st = c.st ∧ c'.threads = c.threads ++ [⟨o, code o⟩] := by
  cases h
  exact ⟨rfl, rfl⟩

/-- Inversion of a step: the thread was about to execute a section, and only
the state and that thread change. -/
theorem next_step {code : Op → Prog σ α} {c c' : Config σ Op α} {i : ℕ}
    (h : c.next code (.step i) = some c') :
    ∃ o f k, c.threads[i]? = some ⟨o, .sect f k⟩ ∧ c'.st = f c.st ∧
      c'.threads = c.threads.set i ⟨o, k c.st⟩ := by
  simp only [next] at h
  split at h
  · rename_i o f k hi
    cases h
    exact ⟨o, f, k, hi, rfl, rfl⟩
  · cases h

theorem next_step_threads {code : Op → Prog σ α} {c c' : Config σ Op α} {i : ℕ}
    (h : c.next code (.step i) = some c') :
    ∃ o f k, c.threads[i]? = some ⟨o, .sect f k⟩ ∧ c'.st = f c.st ∧
      c'.threads[i]? = some ⟨o, k c.st⟩ ∧ ∀ j, j ≠ i → c'.threads[j]? = c.threads[j]? := by
  obtain ⟨o, f, k, hi, hst, hth⟩ := next_step h
  have hlen : i < c.threads.length := (List.getElem?_eq_some_iff.mp hi).1
  refine ⟨o, f, k, hi, hst, ?_, fun j hj => ?_⟩
  · rw [hth, List.getElem?_set_self hlen]
  · rw [hth, List.getElem?_set_ne (Ne.symm hj)]

theorem next_step_ops {code : Op → Prog σ α} {c c' : Config σ Op α} {i : ℕ}
    (h : c.next code (.step i) = some c') :
    c'.threads.map (·.op) = c.threads.map (·.op) := by
  obtain ⟨o, f, k, hi, -, hi', hother⟩ := next_step_threads h
  apply List.ext_getElem?
  intro j
  rw [List.getElem?_map, List.getElem?_map]
  by_cases hji : j = i
  · subst hji
    rw [hi, hi']
    rfl
  · rw [hother j hji]

theorem next_start_threads {code : Op → Prog σ α} {c c' : Config σ Op α} {o : Op}
    (h : c.next code (.start o) = some c') :
    (∀ (j : ℕ) (th : Thread σ Op α), c.threads[j]? = some th → c'.threads[j]? = some th) ∧
    ∀ (j : ℕ) (th : Thread σ Op α), c'.threads[j]? = some th →
      c.threads[j]? = some th ∨ th = ⟨o, code o⟩ := by
  obtain ⟨-, hth⟩ := next_start h
  rw [hth]
  refine ⟨fun j th hj => ?_, fun j th hj => ?_⟩
  · rw [List.getElem?_append_left (List.getElem?_eq_some_iff.mp hj).1]
    exact hj
  · by_cases hlt : j < c.threads.length
    · rw [List.getElem?_append_left hlt] at hj
      exact Or.inl hj
    · rw [List.getElem?_append_right (Nat.le_of_not_lt hlt)] at hj
      exact Or.inr (List.mem_singleton.mp (List.mem_of_getElem? hj))

theorem mem_of_next_start {code : Op → Prog σ α} {c c' : Config σ Op α} {o : Op}
    (h : c.next code (.start o) = some c') {th : Thread σ Op α} (hmem : th ∈ c'.threads) :
    th ∈ c.threads ∨ th = ⟨o, code o⟩ := by
  obtain ⟨-, hth⟩ := next_start h
  rw [hth, List.mem_append, List.mem_singleton] at hmem
  exact hmem

section Moved

variable {c c' : Config σ Op α} {i : ℕ} {moved before th : Thread σ Op α}

theorem mem_of_moved (hi' : c'.threads[i]? = some moved)
    (hother : ∀ j, j ≠ i → c'.threads[j]? = c.threads[j]?) (hmem : th ∈ c'.threads) :
    th = moved ∨ ∃ j, j ≠ i ∧ c.threads[j]? = some th := by
  obtain ⟨j, hj⟩ := List.mem_iff_getElem?.mp hmem
  by_cases hji : j = i
  · subst hji
    exact Or.inl (Option.some.inj (hj.symm.trans hi'))
  · exact Or.inr ⟨j, hji, (hother j hji).symm.trans hj⟩

theorem mem_of_unmoved (hi : c.threads[i]? = some before)
    (hother : ∀ j, j ≠ i → c'.threads[j]? = c.threads[j]?) (hmem : th ∈ c.threads)
    (hne : th ≠ before) : th ∈ c'.threads := by
  obtain ⟨j, hj⟩ := List.mem_iff_getElem?.mp hmem
  have hji : j ≠ i := by
    rintro rfl
    exact hne (Option.some.inj (hj.symm.trans hi))
  exact List.mem_of_getElem? ((hother j hji).trans hj)

end Moved

end Config

/-- Configurations reached from `c₀` by labels that all met `Ok`. -/
inductive Run {σ Op α : Type} (code : Op → Prog σ α)
    (Ok : Config σ Op α → Label Op → Prop) (c₀ : Config σ Op α) :
    Config σ Op α → Prop
  | init : Run code Ok c₀ c₀
  | tail {c c' : Config σ Op α} (l : Label Op) : Run code Ok c₀ c → Ok c l →
      c.next code l = some c' → Run code Ok c₀ c'

section Rules

variable {σ Op α : Type} {code : Op → Prog σ α}
  {Ok : Config σ Op α → Label Op → Prop} {c₀ : Config σ Op α}

/-- A schedule whose labels all meet `Ok` where they are taken. -/
def AllOk (code : Op → Prog σ α) (Ok : Config σ Op α → Label Op → Prop) :
    Config σ Op α → List (Label Op) → Prop
  | _, [] => True
  | c, l :: ls => Ok c l ∧ ∀ c', c.next code l = some c' → AllOk code Ok c' ls

theorem Run.of_exec {ls : List (Label Op)} :
    ∀ {c c' : Config σ Op α}, Run code Ok c₀ c → AllOk code Ok c ls →
      c.exec code ls = some c' → Run code Ok c₀ c' := by
  induction ls with
  | nil =>
    intro c c' hr _ h
    cases h
    exact hr
  | cons l ls ih =>
    intro c c' hr hok h
    simp only [Config.exec] at h
    cases hn : c.next code l with
    | none => simp [hn] at h
    | some d =>
      rw [hn] at h
      exact ih (hr.tail l hok.1 hn) (hok.2 d hn) h

theorem Run.trans {c c' : Config σ Op α} (h₁ : Run code Ok c₀ c) (h₂ : Run code Ok c c') :
    Run code Ok c₀ c' := by
  induction h₂ with
  | init => exact h₁
  | tail l _ hok hn ih => exact ih.tail l hok hn

theorem Run.mono {Ok' : Config σ Op α → Label Op → Prop} (hok : ∀ c l, Ok c l → Ok' c l)
    {c : Config σ Op α} (h : Run code Ok c₀ c) : Run code Ok' c₀ c := by
  induction h with
  | init => exact .init
  | tail l _ hl hn ih => exact ih.tail l (hok _ _ hl) hn

theorem allOk_of_forall (hok : ∀ c l, Ok c l) (ls : List (Label Op)) :
    ∀ c : Config σ Op α, AllOk code Ok c ls := by
  induction ls with
  | nil => exact fun _ => trivial
  | cons l ls ih => exact fun c => ⟨hok c l, fun c' _ => ih c'⟩

theorem allOk_of_mem {Fit : Label Op → Prop} (ls : List (Label Op)) (hfit : ∀ l ∈ ls, Fit l) :
    ∀ c : Config σ Op α, AllOk code (fun _ l => Fit l) c ls := by
  induction ls with
  | nil => exact fun _ => trivial
  | cons l ls ih =>
    exact fun c => ⟨hfit l List.mem_cons_self,
      fun c' _ => ih (fun l hl => hfit l (List.mem_cons_of_mem _ hl)) c'⟩

/-- Threads that all keep `P`, and rely on nothing else, go on to do so; what each
promised of its outcome stays promised. -/
theorem Config.keep_next {P : σ → Prop} {Q : ℕ → Except String α → Prop}
    {c c' : Config σ Op α} {i : ℕ} (hst : P c.st)
    (hall : ∀ (j : ℕ) (th : Thread σ Op α), c.threads[j]? = some th →
      th.prog.Holds (fun _ t => P t) (fun _ t => P t) (fun r _ => Q j r) c.st)
    (hn : c.next code (.step i) = some c') :
    P c'.st ∧ ∀ (j : ℕ) (th : Thread σ Op α), c'.threads[j]? = some th →
      th.prog.Holds (fun _ t => P t) (fun _ t => P t) (fun r _ => Q j r) c'.st := by
  obtain ⟨o, f, k, hi, hst', hi', hother⟩ := Config.next_step_threads hn
  obtain ⟨hg, hk⟩ := hall i _ hi c.st hst
  rw [hst']
  refine ⟨hg, fun j th hj => ?_⟩
  by_cases hji : j = i
  · subst hji
    cases hi'.symm.trans hj
    exact hk
  · rw [hother j hji] at hj
    have hth := hall j th hj
    cases hp : th.prog with
    | ret a => rw [hp] at hth; exact hth
    | fail e => rw [hp] at hth; exact hth
    | sect f' k' => rw [hp] at hth; exact hth

theorem Config.others_of_length {c : Config σ Op α} {P : Op → Prop}
    (h : c.threads.length = 1) : c.others 0 P := by
  intro j th hj hth
  have hlt := (List.getElem?_eq_some_iff.mp hth).1
  omega

theorem exec_invariant {I : Config σ Op α → Prop}
    (hnext : ∀ c l c', I c → Ok c l → c.next code l = some c' → I c') (ls : List (Label Op)) :
    ∀ {c c' : Config σ Op α}, I c → AllOk code Ok c ls → c.exec code ls = some c' → I c' := by
  induction ls with
  | nil =>
    intro c c' hc _ hexec
    cases hexec
    exact hc
  | cons l ls ih =>
    intro c c' hc hok hexec
    obtain ⟨d, hn, hd⟩ := Option.bind_eq_some_iff.mp hexec
    exact ih (hnext c l d hc hok.1 hn) (hok.2 d hn) hd

theorem allOk_next_iff {I : Config σ Op α → Prop} (ls : List (Label Op)) :
    ∀ c : Config σ Op α, I c →
      (AllOk code (fun c l => ∀ c', c.next code l = some c' → I c') c ls ↔
        ∀ pre c', pre <+: ls → c.exec code pre = some c' → I c') := by
  induction ls with
  | nil =>
    intro c hc
    refine iff_of_true trivial fun pre c' hpre hexec => ?_
    rw [List.prefix_nil.mp hpre] at hexec
    cases hexec
    exact hc
  | cons l ls ih =>
    intro c hc
    constructor
    · rintro ⟨hnow, hrest⟩ pre c' hpre hexec
      cases pre with
      | nil =>
        cases hexec
        exact hc
      | cons l' pre =>
        obtain ⟨rfl, htail⟩ := List.cons_prefix_cons.mp hpre
        obtain ⟨d, hn, hd⟩ := Option.bind_eq_some_iff.mp hexec
        exact (ih d (hnow d hn)).mp (hrest d hn) pre c' htail hd
    · intro hall
      have hfirst : ∀ d, c.next code l = some d → I d := by
        intro d hn
        refine hall [l] d ⟨ls, rfl⟩ ?_
        show (c.next code l).bind _ = _
        rw [hn]
        rfl
      refine ⟨hfirst, fun d hn => (ih d (hfirst d hn)).mpr fun pre c' hpre hexec => ?_⟩
      refine hall (l :: pre) c' (List.cons_prefix_cons.mpr ⟨rfl, hpre⟩) ?_
      show (c.next code l).bind _ = _
      rw [hn]
      exact hexec

/-- **Rely-guarantee.** If every operation `o`, from the state it is started in,
keeps its guarantee `G o` under interference `R o`, and a guaranteed step is
interference that the other unfinished operations tolerate, then every thread of
every reached configuration still keeps its guarantee. That they all do so far, and an
invariant of the shared state that guaranteed steps keep, may be used to show that a
step is tolerated. -/
theorem Run.rely_guarantee_within {I : σ → Prop} {R G : Op → σ → σ → Prop}
    (hrefl : ∀ o s, I s → R o s s) (htrans : ∀ o s t u, R o s t → R o t u → R o s u)
    (hinv : ∀ o s t, I s → G o s t → I t)
    (hstart : ∀ c o, Run code Ok c₀ c → I c.st → Ok c (.start o) →
      (code o).Holds (R o) (G o) (fun _ _ => True) c.st)
    (hstep : ∀ c i o f k, Run code Ok c₀ c → I c.st → Ok c (.step i) →
      (∀ th ∈ c.threads, th.prog.Holds (R th.op) (G th.op) (fun _ _ => True) c.st) →
      c.threads[i]? = some ⟨o, .sect f k⟩ → G o c.st (f c.st) →
      ∀ j th, j ≠ i → c.threads[j]? = some th → th.prog.finished = false →
        R th.op c.st (f c.st))
    (hI₀ : I c₀.st)
    (h₀ : ∀ th ∈ c₀.threads, th.prog.Holds (R th.op) (G th.op) (fun _ _ => True) c₀.st)
    {c : Config σ Op α} (h : Run code Ok c₀ c) :
    I c.st ∧ ∀ th ∈ c.threads, th.prog.Holds (R th.op) (G th.op) (fun _ _ => True) c.st := by
  induction h with
  | init => exact ⟨hI₀, h₀⟩
  | @tail c c' l hr hok hn ih =>
    obtain ⟨hI, ih⟩ := ih
    cases l with
    | start o =>
      obtain ⟨hst, hth⟩ := Config.next_start hn
      rw [hst]
      refine ⟨hI, fun th hmem => ?_⟩
      rw [hth, List.mem_append] at hmem
      rcases hmem with hmem | hmem
      · exact ih th hmem
      · rw [List.mem_singleton.mp hmem]
        exact hstart c o hr hI hok
    | step i =>
      obtain ⟨o, f, k, hi, hst, hth⟩ := Config.next_step hn
      have hrun := ih _ (List.mem_of_getElem? hi)
      obtain ⟨hg, hk⟩ := hrun c.st (hrefl _ _ hI)
      rw [hst]
      refine ⟨hinv o _ _ hI hg, fun th hmem => ?_⟩
      rw [hth] at hmem
      obtain ⟨j, hj⟩ := List.mem_iff_getElem?.mp hmem
      by_cases hij : i = j
      · -- the thread that moved: what `Holds` promised of its rest
        subst hij
        have hlen : i < c.threads.length := (List.getElem?_eq_some_iff.mp hi).1
        rw [List.getElem?_set_self hlen] at hj
        cases hj
        exact hk
      · -- another thread: finished, or it tolerates the step
        rw [List.getElem?_set_ne hij] at hj
        have hth' := ih th (List.mem_of_getElem? hj)
        cases hp : th.prog with
        | ret a => trivial
        | fail e => trivial
        | sect f' k' =>
          have htol := hstep c i o f k hr hI hok ih hi hg j th (Ne.symm hij) hj
            (by rw [hp]; rfl)
          rw [← hp]
          exact hth'.shift (htrans th.op) (fun _ _ _ _ _ => trivial) htol

theorem Run.rely_guarantee_from {R G : Op → σ → σ → Prop}
    (hrefl : ∀ o s, R o s s) (htrans : ∀ o s t u, R o s t → R o t u → R o s u)
    (hstart : ∀ c o, Run code Ok c₀ c → Ok c (.start o) →
      (code o).Holds (R o) (G o) (fun _ _ => True) c.st)
    (hstep : ∀ c i o f k, Run code Ok c₀ c → Ok c (.step i) →
      (∀ th ∈ c.threads, th.prog.Holds (R th.op) (G th.op) (fun _ _ => True) c.st) →
      c.threads[i]? = some ⟨o, .sect f k⟩ → G o c.st (f c.st) →
      ∀ j th, j ≠ i → c.threads[j]? = some th → th.prog.finished = false →
        R th.op c.st (f c.st))
    (h₀ : ∀ th ∈ c₀.threads, th.prog.Holds (R th.op) (G th.op) (fun _ _ => True) c₀.st)
    {c : Config σ Op α} (h : Run code Ok c₀ c) :
    ∀ th ∈ c.threads, th.prog.Holds (R th.op) (G th.op) (fun _ _ => True) c.st := by
  refine (Run.rely_guarantee_within (I := fun _ => True) (fun o s _ => hrefl o s) htrans
    (fun _ _ _ _ _ => trivial) ?_ ?_ trivial h₀ h).2
  · intro c o hr _ hok
    exact hstart c o hr hok
  · intro c i o f k hr _ hok
    exact hstep c i o f k hr hok

theorem Run.rely_guarantee {R G : Op → σ → σ → Prop}
    (hrefl : ∀ o s, R o s s) (htrans : ∀ o s t u, R o s t → R o t u → R o s u)
    (hstart : ∀ c o, Run code Ok c₀ c → Ok c (.start o) →
      (code o).Holds (R o) (G o) (fun _ _ => True) c.st)
    (hstep : ∀ c i o f k, Run code Ok c₀ c → Ok c (.step i) →
      c.threads[i]? = some ⟨o, .sect f k⟩ → G o c.st (f c.st) →
      c.others i fun o' => R o' c.st (f c.st))
    (h₀ : c₀.threads = []) {c : Config σ Op α} (h : Run code Ok c₀ c) :
    ∀ th ∈ c.threads, th.prog.Holds (R th.op) (G th.op) (fun _ _ => True) c.st := by
  refine Run.rely_guarantee_from hrefl htrans hstart ?_ ?_ h
  · intro c i o f k hr hok _ hi hg
    exact hstep c i o f k hr hok hi hg
  · intro th hth
    rw [h₀] at hth
    cases hth

def Config.Apart {κ : Type} (key : Op → Option κ) (c : Config σ Op α) : Prop :=
  ∀ (i j : ℕ) (th th' : Thread σ Op α) (k : κ), c.threads[i]? = some th →
    c.threads[j]? = some th' → th.prog.finished = false → th'.prog.finished = false →
    key th.op = some k → key th'.op = some k → i = j

theorem Run.apart {κ : Type} {key : Op → Option κ}
    (hturn : ∀ c o k, Ok c (.start o) → key o = some k →
      ∀ th ∈ c.threads, key th.op = some k → th.prog.finished = true)
    (h₀ : c₀.threads = []) {c : Config σ Op α} (h : Run code Ok c₀ c) : c.Apart key := by
  induction h with
  | init =>
    intro i j th th' k hi
    rw [h₀] at hi
    cases hi
  | @tail c c' l hr hok hn ih =>
    intro i j th th' k hi hj hfin hfin' hk hk'
    cases l with
    | start o =>
      -- an old thread of the key is through, so two unfinished ones are both old or the same
      obtain ⟨-, hth⟩ := Config.next_start hn
      rw [hth, List.getElem?_append] at hi hj
      have hold : ∀ th ∈ c.threads, key th.op = some k → th.prog.finished = false →
          key o ≠ some k := by
        intro th hmem hkey hunfinished ho
        rw [hturn c o k hok ho th hmem hkey] at hunfinished
        cases hunfinished
      split at hi <;> split at hj
      · exact ih i j th th' k hi hj hfin hfin' hk hk'
      · obtain ⟨hzero, rfl⟩ := List.getElem?_eq_some_iff.mp hj
        simp only [List.getElem_singleton] at hk'
        exact absurd hk' (hold th (List.mem_of_getElem? hi) hk hfin)
      · obtain ⟨hzero, rfl⟩ := List.getElem?_eq_some_iff.mp hi
        simp only [List.getElem_singleton] at hk
        exact absurd hk (hold th' (List.mem_of_getElem? hj) hk' hfin')
      · have hi' := (List.getElem?_eq_some_iff.mp hi).1
        have hj' := (List.getElem?_eq_some_iff.mp hj).1
        simp only [List.length_singleton] at hi' hj'
        omega
    | step m =>
      obtain ⟨o, f, g, hm, -, hm', hother⟩ := Config.next_step_threads hn
      have hback : ∀ (j : ℕ) (th : Thread σ Op α), c'.threads[j]? = some th →
          th.prog.finished = false → key th.op = some k →
          ∃ th₀, c.threads[j]? = some th₀ ∧ th₀.prog.finished = false ∧ key th₀.op = some k := by
        intro j th hj hfin hk
        by_cases hjm : j = m
        · subst hjm
          cases hm'.symm.trans hj
          exact ⟨_, hm, rfl, hk⟩
        · rw [hother j hjm] at hj
          exact ⟨th, hj, hfin, hk⟩
      obtain ⟨th₀, hi₀, hfin₀, hk₀⟩ := hback i th hi hfin hk
      obtain ⟨th₁, hj₁, hfin₁, hk₁⟩ := hback j th' hj hfin' hk'
      exact ih i j th₀ th₁ k hi₀ hj₁ hfin₀ hfin₁ hk₀ hk₁

/-- Where every program makes `G`-changes only, whatever the others do, a transitive
`G` relates the first state of a run to every later one. -/
theorem Run.related {G : σ → σ → Prop} (hrefl : ∀ s, G s s)
    (htrans : ∀ s t u, G s t → G t u → G s u)
    (hcode : ∀ o s, (code o).Holds (fun _ _ => True) G (fun _ _ => True) s)
    (h₀ : ∀ th ∈ c₀.threads, th.prog.Holds (fun _ _ => True) G (fun _ _ => True) c₀.st)
    {c : Config σ Op α} (h : Run code Ok c₀ c) :
    G c₀.st c.st ∧
      ∀ th ∈ c.threads, th.prog.Holds (fun _ _ => True) G (fun _ _ => True) c.st := by
  induction h with
  | init => exact ⟨hrefl _, h₀⟩
  | @tail c c' l hr hok hn ih =>
    obtain ⟨hrel, hall⟩ := ih
    cases l with
    | start o =>
      obtain ⟨hst, hth⟩ := Config.next_start hn
      rw [hst, hth]
      refine ⟨hrel, fun th hmem => ?_⟩
      rcases List.mem_append.mp hmem with hmem | hmem
      · exact hall th hmem
      · rw [List.mem_singleton.mp hmem]
        exact hcode o c.st
    | step i =>
      obtain ⟨o, f, k, hi, hst, hth⟩ := Config.next_step hn
      obtain ⟨hg, hk⟩ := hall _ (List.mem_of_getElem? hi) c.st trivial
      rw [hst, hth]
      refine ⟨htrans _ _ _ hrel hg, fun th hmem => ?_⟩
      rcases List.mem_or_eq_of_mem_set hmem with hmem | rfl
      · exact (hall th hmem).shift (fun _ _ _ _ _ => trivial) (fun _ _ _ _ _ => trivial)
          trivial
      · exact hk

theorem Run.step_guarantee {R G : Op → σ → σ → Prop} (hrefl : ∀ o s, R o s s)
    {c : Config σ Op α}
    (hall : ∀ th ∈ c.threads, th.prog.Holds (R th.op) (G th.op) (fun _ _ => True) c.st)
    {c' : Config σ Op α} {i : ℕ} (hn : c.next code (.step i) = some c') :
    ∃ th, c.threads[i]? = some th ∧ G th.op c.st c'.st := by
  obtain ⟨o, f, k, hi, hst, -⟩ := Config.next_step hn
  refine ⟨_, hi, ?_⟩
  rw [hst]
  exact (hall _ (List.mem_of_getElem? hi) c.st (hrefl _ _)).1

end Rules

end OpenObs.Foundation
