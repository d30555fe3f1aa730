import Mathlib.Data.List.Basic
import Mathlib.Logic.Relation

/-!
# Rose trees

A value and the list of the subtrees. `chosen` is the walk that asks the subtrees of a
node one after the other and stops after the first taken one that does not let it go
on; `Below` are the nodes such a walk comes to.
-/

namespace OpenObs.Foundation

inductive Rose (α : Type) : Type where
  | node (value : α) (children : List (Rose α))

namespace Rose

variable {α : Type}

def value : Rose α → α
  | .node a _ => a

def children : Rose α → List (Rose α)
  | .node _ cs => cs

mutual
theorem ind {P : Rose α → Prop} (h : ∀ a cs, (∀ c ∈ cs, P c) → P (.node a cs)) :
    ∀ t : Rose α, P t
  | .node a cs => h a cs (ind_children h cs)
theorem ind_children {P : Rose α → Prop} (h : ∀ a cs, (∀ c ∈ cs, P c) → P (.node a cs)) :
    ∀ cs : List (Rose α), ∀ c ∈ cs, P c
  | [] => List.forall_mem_nil P
  | d :: ds => List.forall_mem_cons.mpr ⟨ind h d, ind_children h ds⟩
end

section Walk

variable {m cont : Rose α → Bool} {t c : Rose α} {cs : List (Rose α)}

def chosen (m cont : Rose α → Bool) : List (Rose α) → List (Rose α)
  | [] => []
  | c :: cs =>
    if m c then (if cont c then c :: chosen m cont cs else [c])
    else chosen m cont cs

theorem mem_of_mem_chosen (h : c ∈ chosen m cont cs) : c ∈ cs ∧ m c = true := by
  induction cs with
  | nil => cases h
  | cons d ds ih =>
    rw [chosen] at h
    split at h
    · rename_i hm
      split at h
      · rcases List.mem_cons.mp h with rfl | h
        · exact ⟨List.mem_cons_self, hm⟩
        · exact ⟨List.mem_cons_of_mem _ (ih h).1, (ih h).2⟩
      · rw [List.mem_singleton.mp h]
        exact ⟨List.mem_cons_self, hm⟩
    · exact ⟨List.mem_cons_of_mem _ (ih h).1, (ih h).2⟩

theorem chosen_eq_of_imp {m' : Rose α → Bool} (himp : ∀ c, m c = true → m' c = true)
    (h : ∀ c ∈ chosen m' cont cs, m c = true) : chosen m cont cs = chosen m' cont cs := by
  induction cs with
  | nil => rfl
  | cons d ds ih =>
    rw [chosen] at h
    rw [chosen, chosen]
    by_cases hd : m' d = true
    · rw [if_pos hd] at h
      rw [if_pos hd]
      split at h
      · rename_i hcont
        rw [if_pos (h d List.mem_cons_self), if_pos hcont, if_pos hcont,
          ih fun c hc => h c (List.mem_cons_of_mem _ hc)]
      · rename_i hcont
        rw [if_pos (h d List.mem_cons_self), if_neg hcont, if_neg hcont]
    · rw [if_neg hd] at h
      rw [if_neg hd, if_neg fun hm => hd (himp d hm), ih h]

/-- `c` is a child of `t` that is chosen. -/
def Child (m cont : Rose α → Bool) (t c : Rose α) : Prop := c ∈ chosen m cont t.children

/-- The nodes below `t` that the walk comes to. -/
abbrev Below (m cont : Rose α → Bool) : Rose α → Rose α → Prop :=
  Relation.TransGen (Child m cont)

theorem below_iff {n : Rose α} :
    Below m cont t n ↔ ∃ c ∈ chosen m cont t.children, c = n ∨ Below m cont c n := by
  rw [Below, Relation.TransGen.head'_iff]
  refine exists_congr fun c => and_congr Iff.rfl ?_
  rw [Relation.reflTransGen_iff_eq_or_transGen, eq_comm]

theorem below_congr {m' : Rose α → Bool} (himp : ∀ c, m c = true → m' c = true)
    (h : ∀ n, Below m' cont t n → m n = true) (n : Rose α) :
    Below m cont t n ↔ Below m' cont t n := by
  have hsame : ∀ p, p = t ∨ Below m' cont t p →
      chosen m cont p.children = chosen m' cont p.children := by
    intro p hp
    refine chosen_eq_of_imp himp fun c hc => h c ?_
    rcases hp with rfl | hp
    · exact .single hc
    · exact hp.tail hc
  constructor
  · intro hn
    induction hn with
    | single hc => exact .single (by rw [Child, ← hsame t (Or.inl rfl)]; exact hc)
    | tail _ hc ih => exact ih.tail (by rw [Child, ← hsame _ (Or.inr ih)]; exact hc)
  · intro hn
    induction hn with
    | single hc => exact .single (by rw [Child, hsame t (Or.inl rfl)]; exact hc)
    | tail hp hc ih => exact ih.tail (by rw [Child, hsame _ (Or.inr hp)]; exact hc)

theorem exists_below_iff : (∃ n, Below m cont t n) ↔ chosen m cont t.children ≠ [] := by
  constructor
  · rintro ⟨n, hn⟩ hnil
    obtain ⟨c, hc, -⟩ := below_iff.mp hn
    rw [hnil] at hc
    cases hc
  · intro hne
    obtain ⟨c, hc⟩ := List.exists_mem_of_ne_nil _ hne
    exact ⟨c, below_iff.mpr ⟨c, hc, Or.inl rfl⟩⟩

end Walk

/-! ## The first node of a kind -/

section Edit

variable {p q : α → Bool} {f : Rose α → Rose α} {t t' n : Rose α} {a : α} {cs : List (Rose α)}

mutual
/-- The first node that `p` takes, a parent before its children. -/
def findNode (p : α → Bool) : Rose α → Option (Rose α)
  | .node a cs => if p a then some (.node a cs) else findNodeIn p cs
def findNodeIn (p : α → Bool) : List (Rose α) → Option (Rose α)
  | [] => none
  | c :: cs => (findNode p c).or (findNodeIn p cs)
end

mutual
/-- The tree with the node that `findNode` finds edited in its place. -/
def editNode (p : α → Bool) (f : Rose α → Rose α) : Rose α → Rose α
  | .node a cs => if p a then f (.node a cs) else .node a (editNodeIn p f cs)
def editNodeIn (p : α → Bool) (f : Rose α → Rose α) : List (Rose α) → List (Rose α)
  | [] => []
  | c :: cs =>
    if (findNode p c).isSome then editNode p f c :: cs else c :: editNodeIn p f cs
end

mutual
/-- The tree without the first child that `p` takes, its own children before theirs. -/
def removeNode (p : α → Bool) : Rose α → Option (Rose α)
  | .node a cs =>
    if cs.any (p ·.value) then some (.node a (cs.eraseP (p ·.value)))
    else (removeNodeIn p cs).map (.node a)
def removeNodeIn (p : α → Bool) : List (Rose α) → Option (List (Rose α))
  | [] => none
  | c :: cs =>
    match removeNode p c with
    | some c' => some (c' :: cs)
    | none => (removeNodeIn p cs).map (c :: ·)
end

/-- `n` is `t` or one of the nodes below it. -/
abbrev Sub : Rose α → Rose α → Prop := Relation.ReflTransGen fun t c => c ∈ t.children

theorem sub_node : Sub (.node a cs) n ↔ n = .node a cs ∨ ∃ c ∈ cs, Sub c n := by
  rw [Sub, Relation.ReflTransGen.cases_head_iff, eq_comm]
  rfl

/-- Some node of the tree is taken by `q`. -/
def Has (q : α → Bool) (t : Rose α) : Prop := ∃ n, Sub t n ∧ q n.value = true

theorem has_node : Has q (.node a cs) ↔ q a = true ∨ ∃ c ∈ cs, Has q c := by
  constructor
  · rintro ⟨n, hsub, hn⟩
    rcases sub_node.mp hsub with rfl | ⟨c, hc, hsub⟩
    · exact Or.inl hn
    · exact Or.inr ⟨c, hc, n, hsub, hn⟩
  · rintro (ha | ⟨c, hc, n, hsub, hn⟩)
    · exact ⟨_, .refl, ha⟩
    · exact ⟨n, sub_node.mpr (Or.inr ⟨c, hc, hsub⟩), hn⟩

theorem has_node_append {before after : List (Rose α)} {c : Rose α} :
    Has q (.node a (before ++ c :: after)) ↔
      Has q (.node a (before ++ after)) ∨ Has q c := by
  simp only [has_node, List.mem_append, List.mem_cons, or_and_right, exists_or, exists_eq_left, or_assoc]
  rw [or_comm (a := Has q c)]

theorem editNodeIn_cases (cs : List (Rose α)) :
    (findNodeIn p cs = none ∧ editNodeIn p f cs = cs) ∨
    ∃ before c after, cs = before ++ c :: after ∧ (findNode p c).isSome = true ∧
      editNodeIn p f cs = before ++ editNode p f c :: after := by
  induction cs with
  | nil => exact Or.inl ⟨rfl, rfl⟩
  | cons c cs ih =>
    rw [findNodeIn, editNodeIn]
    by_cases hc : (findNode p c).isSome = true
    · rw [if_pos hc]
      exact Or.inr ⟨[], c, cs, rfl, hc, rfl⟩
    · rw [if_neg hc, Option.not_isSome_iff_eq_none.mp hc, Option.none_or]
      rcases ih with ⟨hnone, hsame⟩ | ⟨before, d, after, rfl, hd, hedit⟩
      · exact Or.inl ⟨hnone, by rw [hsame]⟩
      · exact Or.inr ⟨c :: before, d, after, rfl, hd, by rw [hedit]; rfl⟩

theorem removeNodeIn_eq_some {cs' : List (Rose α)} :
    ∀ {cs : List (Rose α)}, removeNodeIn p cs = some cs' →
      ∃ before c c' after, cs = before ++ c :: after ∧ removeNode p c = some c' ∧
        cs' = before ++ c' :: after := by
  intro cs
  induction cs generalizing cs' with
  | nil => intro h; cases h
  | cons c cs ih =>
    intro h
    rw [removeNodeIn] at h
    split at h
    · rename_i c' hc
      cases h
      exact ⟨[], c, c', cs, rfl, hc, rfl⟩
    · obtain ⟨ds, hds, rfl⟩ := Option.map_eq_some_iff.mp h
      obtain ⟨before, d, d', after, rfl, hd, rfl⟩ := ih hds
      exact ⟨c :: before, d, d', after, rfl, hd, rfl⟩

theorem Has.editNode (hf : ∀ n, Has q n → Has q (f n)) : Has q t → Has q (editNode p f t) := by
  induction t using Rose.ind with
  | h a cs ih =>
    intro h
    rw [Rose.editNode]
    split
    · exact hf _ h
    · rcases editNodeIn_cases (p := p) (f := f) cs with ⟨-, hsame⟩ |
        ⟨before, c, after, rfl, -, hedit⟩
      · rw [hsame]
        exact h
      · rw [hedit, has_node_append]
        exact (has_node_append.mp h).imp_right (ih c (by simp))

theorem has_editNode_of_found (hf : ∀ n, Has q (f n)) :
    (findNode p t).isSome = true → Has q (editNode p f t) := by
  induction t using Rose.ind with
  | h a cs ih =>
    intro hfound
    rw [findNode] at hfound
    rw [Rose.editNode]
    split
    · exact hf _
    · rename_i hp
      rw [if_neg hp] at hfound
      rcases editNodeIn_cases (p := p) (f := f) cs with ⟨hnone, -⟩ |
        ⟨before, c, after, rfl, hc, hedit⟩
      · rw [hnone] at hfound
        cases hfound
      · rw [hedit, has_node_append]
        exact Or.inr (ih c (by simp) hc)

theorem Has.removeNode : ∀ {t'}, Has q t → removeNode p t = some t' →
    Has q t' ∨ ∃ n, Sub t n ∧ p n.value = true ∧ Has q n := by
  induction t using Rose.ind with
  | h a cs ih =>
    intro t' h hremove
    rw [Rose.removeNode] at hremove
    split at hremove
    · cases hremove
      rcases has_node.mp h with ha | ⟨c, hc, hhas⟩
      · exact Or.inl (has_node.mpr (Or.inl ha))
      · by_cases hp : p c.value = true
        · exact Or.inr ⟨c, sub_node.mpr (Or.inr ⟨c, hc, .refl⟩), hp, hhas⟩
        · have hleft : c ∈ cs.eraseP (p ·.value) :=
            (List.mem_eraseP_of_neg (p := fun x : Rose α => p x.value) hp).mpr hc
          exact Or.inl (has_node.mpr (Or.inr ⟨c, hleft, hhas⟩))
    · obtain ⟨cs', hcs', rfl⟩ := Option.map_eq_some_iff.mp hremove
      obtain ⟨before, c, c', after, rfl, hc, rfl⟩ := removeNodeIn_eq_some hcs'
      rw [has_node_append] at h ⊢
      rcases h with hrest | hhas
      · exact Or.inl (Or.inl hrest)
      · rcases ih c (by simp) hhas hc with hleft | ⟨n, hsub, hn⟩
        · exact Or.inl (Or.inr hleft)
        · exact Or.inr ⟨n, sub_node.mpr (Or.inr ⟨c, by simp, hsub⟩), hn⟩

end Edit

end Rose

end OpenObs.Foundation
