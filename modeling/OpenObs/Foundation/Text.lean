import Mathlib.Data.List.Flatten
import Mathlib.Data.List.Sort
import Mathlib.Data.List.Lex

/-!
# Text

The string operations the sources use, on the characters of a string: `startsWith`, `slice` from a
position to the end, `split` at a separator, `join` and `sort`.
-/

namespace OpenObs.Foundation.Text

/-- `s.startsWith(p)`. -/
def startsWith (s p : String) : Bool := p.toList.isPrefixOf s.toList

/-- `s.slice(n)`. -/
def slice (s : String) (n : ℕ) : String := String.ofList (s.toList.drop n)

/-- `s.split(c)` for a one-character separator. -/
def split (s : String) (c : Char) : List String :=
  (s.toList.splitOn c).map String.ofList

/-- `xs.join(c)` for a one-character separator. -/
def join (xs : List String) (c : Char) : String :=
  String.ofList ([c].intercalate (xs.map String.toList))

/-- `s.split(sep)` for a longer separator, `skip` characters of which are still to be passed. -/
def pieces (sep : List Char) : ℕ → List Char → List (List Char)
  | _, [] => [[]]
  | skip + 1, _ :: cs => pieces sep skip cs
  | 0, c :: cs =>
    if sep.isPrefixOf (c :: cs) then [] :: pieces sep (sep.length - 1) cs
    else
      match pieces sep 0 cs with
      | [] => [[c]]
      | piece :: rest => (c :: piece) :: rest

def charUnits (c : Char) : List ℕ :=
  if c.toNat < 0x10000 then [c.toNat]
  else [0xD800 + (c.toNat - 0x10000) / 0x400, 0xDC00 + (c.toNat - 0x10000) % 0x400]

def units (s : List Char) : List ℕ := s.flatMap charUnits

/-- `xs.sort()`: stable, by code units and not by characters. -/
def sort (xs : List String) : List String :=
  xs.mergeSort fun a b => !List.lex (units b.toList) (units a.toList) fun m n => decide (m < n)

/-- `s.slice(s.length - n)`, the last `n` code units; a character the cut would split is
left out. -/
def lastUnits (n : ℕ) : List Char → List Char
  | [] => []
  | c :: cs => if (units (c :: cs)).length ≤ n then c :: cs else lastUnits n cs

/-- `s.slice(0, n)`, the first `n` code units; a character the cut would split is left out. -/
def firstUnits : ℕ → List Char → List Char
  | _, [] => []
  | n, c :: cs =>
    if (charUnits c).length ≤ n then c :: firstUnits (n - (charUnits c).length) cs else []

theorem mem_sort {s : String} {xs : List String} : s ∈ sort xs ↔ s ∈ xs := by
  rw [sort, List.mem_mergeSort]

theorem startsWith_append (p v : String) : startsWith (p ++ v) p = true := by
  simp [startsWith]

theorem startsWith_iff {s p : String} :
    startsWith s p = true ↔ ∃ v, s = p ++ v := by
  constructor
  · intro h
    obtain ⟨v, hv⟩ := List.isPrefixOf_iff_prefix.mp h
    refine ⟨String.ofList v, String.toList_inj.mp ?_⟩
    simp [hv]
  · rintro ⟨v, rfl⟩
    exact startsWith_append p v

theorem mem_intercalate {α : Type} {c : α} {sep : List α} : ∀ {l : List (List α)},
    c ∈ sep.intercalate l → c ∈ sep ∨ ∃ v ∈ l, c ∈ v
  | [], h => nomatch h
  | [v], h => by
    rw [List.intercalate_singleton] at h
    exact Or.inr ⟨v, List.mem_cons_self, h⟩
  | v :: w :: l, h => by
    rw [List.intercalate_cons_cons, List.append_assoc, List.mem_append, List.mem_append] at h
    rcases h with h | h | h
    · exact Or.inr ⟨v, List.mem_cons_self, h⟩
    · exact Or.inl h
    · exact (mem_intercalate h).imp_right fun ⟨u, hu, hc⟩ => ⟨u, List.mem_cons_of_mem v hu, hc⟩

theorem split_ne_nil (s : String) (c : Char) : split s c ≠ [] := by
  simp [split, List.splitOn_ne_nil]

theorem split_of_not_mem {s : String} {c : Char} (h : c ∉ s.toList) :
    split s c = [s] := by
  rw [split, List.splitOn_eq_singleton h]
  simp

theorem join_split (s : String) (c : Char) : join (split s c) c = s := by
  have h : (List.map (String.toList ∘ String.ofList) (s.toList.splitOn c)) =
      s.toList.splitOn c := by
    simp [Function.comp_def]
  rw [join, split, List.map_map, h, List.intercalate_splitOn, String.ofList_toList]

theorem split_eq_singleton {s v : String} {c : Char} (h : split s c = [v]) : v = s := by
  have hj := join_split s c
  rw [h] at hj
  simpa [join] using hj

theorem split_append (s t : String) (c : Char) :
    split (s ++ String.singleton c ++ t) c = split s c ++ split t c := by
  rw [split, String.toList_append, String.toList_append, String.toList_singleton,
    List.append_assoc, List.singleton_append, List.splitOn_append_cons_self]
  simp [split]

theorem split_append_eq_pair {s t v w : String} {c : Char}
    (h : split (s ++ String.singleton c ++ t) c = [v, w]) : v = s ∧ w = t := by
  rw [split_append] at h
  cases hs : split s c with
  | nil => exact absurd hs (split_ne_nil s c)
  | cons v' vs =>
    cases ht : split t c with
    | nil => exact absurd ht (split_ne_nil t c)
    | cons w' ws =>
      rw [hs, ht] at h
      have hlen := congrArg List.length h
      simp only [List.length_append, List.length_cons, List.length_nil] at hlen
      obtain rfl : vs = [] := List.length_eq_zero_iff.mp (by omega)
      obtain rfl : ws = [] := List.length_eq_zero_iff.mp (by simp at hlen; omega)
      cases h
      exact ⟨split_eq_singleton hs, split_eq_singleton ht⟩

theorem join_singleton (v : String) (c : Char) : join [v] c = v := by
  simp [join]

theorem join_cons {v w : String} {vs : List String} {c : Char} :
    join (v :: w :: vs) c = v ++ String.singleton c ++ join (w :: vs) c := by
  apply String.toList_inj.mp
  simp [join, List.intercalate]

theorem pieces_ne_nil (sep : List Char) (cs : List Char) : ∀ skip, pieces sep skip cs ≠ [] := by
  induction cs with
  | nil => exact fun skip => by cases skip <;> exact List.cons_ne_nil _ _
  | cons c cs ih =>
    intro skip
    cases skip with
    | succ skip => exact ih skip
    | zero =>
      rw [pieces]
      split
      · exact List.cons_ne_nil _ _
      · split <;> exact List.cons_ne_nil _ _

theorem intercalate_pieces {sep : List Char} (hsep : sep ≠ []) (cs : List Char) :
    ∀ skip, sep.intercalate (pieces sep skip cs) = cs.drop skip := by
  induction cs with
  | nil =>
    intro skip
    cases skip <;> simp [pieces]
  | cons c cs ih =>
    intro skip
    cases skip with
    | succ skip => exact ih skip
    | zero =>
      rw [pieces]
      split
      · rename_i h
        obtain ⟨rest, hrest⟩ := List.isPrefixOf_iff_prefix.mp h
        have hdrop : cs.drop (sep.length - 1) = rest := by
          have hlong := congrArg (List.drop sep.length) hrest
          rw [List.drop_left] at hlong
          rw [hlong]
          cases sep with
          | nil => exact absurd rfl hsep
          | cons s sep => rfl
        obtain ⟨piece, more, hmore⟩ := List.exists_cons_of_ne_nil
          (pieces_ne_nil sep cs (sep.length - 1))
        have htail := ih (sep.length - 1)
        rw [hmore] at htail ⊢
        rw [List.intercalate_cons_cons, htail, hdrop, ← hrest]
        rfl
      · have htail := ih 0
        split
        · rename_i hnil
          exact absurd hnil (pieces_ne_nil sep cs 0)
        · rename_i piece rest hmore
          rw [hmore] at htail
          rw [List.drop_zero] at htail ⊢
          rw [← htail]
          cases rest <;> simp [List.intercalate]

end OpenObs.Foundation.Text

/-!
# Lines

A text is the lines it is split into, and lines without a line break are those of their text.
-/

namespace OpenObs.Foundation.Text

variable {c : Char}

theorem not_mem_of_mem_split {s l : String} (h : l ∈ split s c) : c ∉ l.toList := by
  have hpieces : ∀ cs : List Char, ∀ piece ∈ cs.splitOn c, c ∉ piece := by
    intro cs
    induction cs with
    | nil =>
      intro piece hpiece
      rw [List.splitOn_nil, List.mem_singleton] at hpiece
      subst hpiece
      exact List.not_mem_nil
    | cons d cs ih =>
      intro piece hpiece
      rw [List.splitOn_cons_eq_if_modifyHead] at hpiece
      split at hpiece
      · rcases List.mem_cons.mp hpiece with rfl | hpiece
        · exact List.not_mem_nil
        · exact ih piece hpiece
      · rename_i hd
        obtain ⟨first, rest, hsplit⟩ := List.exists_cons_of_ne_nil (List.splitOn_ne_nil c cs)
        rw [hsplit] at hpiece ih
        rcases List.mem_cons.mp hpiece with rfl | hpiece
        · rw [List.mem_cons, not_or]
          refine ⟨fun heq => hd (beq_iff_eq.mpr heq.symm), ih first List.mem_cons_self⟩
        · exact ih piece (List.mem_cons_of_mem first hpiece)
  obtain ⟨piece, hpiece, rfl⟩ := List.mem_map.mp h
  rw [String.toList_ofList]
  exact hpieces _ piece hpiece

theorem split_join {lines : List String} (h : ∀ l ∈ lines, c ∉ l.toList) (hne : lines ≠ []) :
    split (join lines c) c = lines := by
  have hpieces : ∀ piece ∈ lines.map String.toList, c ∉ piece := by
    intro piece hpiece
    obtain ⟨l, hl, rfl⟩ := List.mem_map.mp hpiece
    exact h l hl
  rw [split, join, String.toList_ofList,
    List.splitOn_intercalate c hpieces (fun hnil => hne (List.map_eq_nil_iff.mp hnil)),
    List.map_map]
  refine (List.map_congr_left fun l _ => ?_).trans (List.map_id lines)
  exact String.ofList_toList

theorem flatMap_eq_iff {α β : Type} {l : List α} {f g : α → List β}
    (h : ∀ a ∈ l, List.Sublist (f a) (g a)) :
    l.flatMap f = l.flatMap g ↔ ∀ a ∈ l, f a = g a := by
  constructor
  · intro heq
    induction l with
    | nil => exact nofun
    | cons a l ih =>
      have ha := h a List.mem_cons_self
      have hrest := List.Sublist.flatMap_right l fun b hb => h b (List.mem_cons_of_mem a hb)
      rw [List.flatMap_cons, List.flatMap_cons] at heq
      have hlength := congrArg List.length heq
      rw [List.length_append, List.length_append] at hlength
      have hsame : f a = g a :=
        ha.eq_of_length (by have := ha.length_le; have := hrest.length_le; omega)
      rw [hsame, List.append_cancel_left_eq] at heq
      intro b hb
      rcases List.mem_cons.mp hb with rfl | hb
      · exact hsame
      · exact ih (fun b hb => h b (List.mem_cons_of_mem a hb)) heq b hb
  · intro heq
    rw [List.flatMap_def, List.flatMap_def, List.map_congr_left heq]

theorem flatMap_range_getElem? {α : Type} : ∀ {xs : List α} {n : ℕ}, xs.length ≤ n →
    (List.range n).flatMap (fun i => xs[i]?.toList) = xs
  | [], n, _ => by simp
  | x :: xs, n + 1, h => by
    rw [List.range_succ_eq_map, List.flatMap_cons, List.flatMap_map]
    have htail := flatMap_range_getElem? (Nat.le_of_succ_le_succ h)
    simpa using htail

end OpenObs.Foundation.Text

/-!
# The order of code units

`Array.sort` without a comparison orders strings by their UTF-16 code units. Text is
determined by its code units, so the order is a linear one and a sorted list depends on its
members only.
-/

namespace OpenObs.Foundation.Text

theorem charUnits_ne_nil (c : Char) : charUnits c ≠ [] := by
  unfold charUnits
  split <;> exact List.cons_ne_nil _ _

theorem charUnits_append_inj {c d : Char} {xs ys : List ℕ}
    (h : charUnits c ++ xs = charUnits d ++ ys) : c = d ∧ xs = ys := by
  have hc := c.valid
  have hd := d.valid
  simp only [UInt32.isValidChar, Nat.isValidChar] at hc hd
  have same : c.toNat = d.toNat → c = d := fun hn => Char.ext (UInt32.toNat_inj.mp hn)
  unfold charUnits at h
  unfold Char.toNat at h same
  split at h <;> split at h
  · obtain ⟨hn, hrest⟩ := List.cons.inj h
    exact ⟨same hn, hrest⟩
  · -- a character of one unit is no surrogate
    have hn := (List.cons.inj h).1
    omega
  · have hn := (List.cons.inj h).1
    omega
  · obtain ⟨hhigh, hlow⟩ := List.cons.inj h
    obtain ⟨hlow, hrest⟩ := List.cons.inj hlow
    exact ⟨same (by omega), hrest⟩

theorem units_inj {s t : List Char} (h : units s = units t) : s = t := by
  induction s generalizing t with
  | nil =>
    cases t with
    | nil => rfl
    | cons d t => exact absurd (List.append_eq_nil_iff.mp h.symm).1 (charUnits_ne_nil d)
  | cons c s ih =>
    cases t with
    | nil => exact absurd (List.append_eq_nil_iff.mp h).1 (charUnits_ne_nil c)
    | cons d t =>
      rw [units, units, List.flatMap_cons, List.flatMap_cons] at h
      obtain ⟨rfl, hrest⟩ := charUnits_append_inj h
      rw [ih hrest]

theorem sort_eq (xs : List String) :
    sort xs = xs.mergeSort fun a b => decide (units a.toList ≤ units b.toList) := by
  have hcomp : (fun a b : String =>
      !List.lex (units b.toList) (units a.toList) fun m n => decide (m < n)) =
      fun a b => decide (units a.toList ≤ units b.toList) := by
    funext a b
    rw [Bool.eq_iff_iff, Bool.not_eq_true', decide_eq_true_iff, List.lex_eq_false_iff_ge]
    exact not_lt
  rw [sort, hcomp]

theorem pairwise_sort (xs : List String) :
    (sort xs).Pairwise fun a b => units a.toList ≤ units b.toList := by
  have htrans : ∀ a b c : String, decide (units a.toList ≤ units b.toList) →
      decide (units b.toList ≤ units c.toList) → decide (units a.toList ≤ units c.toList) := by
    intro a b c hab hbc
    rw [decide_eq_true_iff] at hab hbc ⊢
    exact hab.trans hbc
  have htotal : ∀ a b : String, decide (units a.toList ≤ units b.toList) ||
      decide (units b.toList ≤ units a.toList) := fun a b => by
    simpa using le_total (units a.toList) (units b.toList)
  rw [sort_eq]
  simpa using List.pairwise_mergeSort htrans htotal xs

theorem sort_congr {xs ys : List String} (h : xs.Perm ys) : sort xs = sort ys := by
  refine List.Perm.eq_of_pairwise (fun a b _ _ hab hba => ?_) (pairwise_sort xs)
    (pairwise_sort ys) ?_
  · exact String.toList_inj.mp (units_inj (le_antisymm hab hba))
  · exact (List.mergeSort_perm xs _).trans (h.trans (List.mergeSort_perm ys _).symm)

end OpenObs.Foundation.Text
