import Mathlib.Data.List.Chain
import Mathlib.Data.List.Infix

/-!
# Replacing a pattern in a text

`s.replace(/pattern/g, replacement)` for a pattern that is matched as it stands.
-/

namespace OpenObs.Foundation

namespace Replacement

/-- The characters that a `$` has a meaning before. -/
def marks : List Char := ['$', '&', Char.ofNat 96, '\'']

def expand (before matched behind : List Char) : List Char → List Char
  | '$' :: c :: rest =>
    if c = '$' then '$' :: expand before matched behind rest
    else if c = '&' then matched ++ expand before matched behind rest
    else if c = Char.ofNat 96 then before ++ expand before matched behind rest
    else if c = '\'' then behind ++ expand before matched behind rest
    else '$' :: expand before matched behind (c :: rest)
  | c :: rest => c :: expand before matched behind rest
  | [] => []

/-- The text behind `before`, of which `skip` characters belong to the last match. -/
def replaceFrom (pattern replacement : List Char) : ℕ → List Char → List Char → List Char
  | _, _, [] => []
  | skip + 1, before, c :: rest => replaceFrom pattern replacement skip (before ++ [c]) rest
  | 0, before, c :: rest =>
    if pattern.isPrefixOf (c :: rest) then
      expand before pattern ((c :: rest).drop pattern.length) replacement ++
        replaceFrom pattern replacement (pattern.length - 1) (before ++ [c]) rest
    else c :: replaceFrom pattern replacement 0 (before ++ [c]) rest

def replaceAll (pattern replacement s : List Char) : List Char :=
  replaceFrom pattern replacement 0 [] s

/-- Every occurrence becomes `v`. -/
def substituteFrom (pattern v : List Char) : ℕ → List Char → List Char
  | _, [] => []
  | skip + 1, _ :: rest => substituteFrom pattern v skip rest
  | 0, c :: rest =>
    if pattern.isPrefixOf (c :: rest) then
      v ++ substituteFrom pattern v (pattern.length - 1) rest
    else c :: substituteFrom pattern v 0 rest

def substitute (pattern v s : List Char) : List Char := substituteFrom pattern v 0 s

/-- No `$` stands before a character it has a meaning before. -/
def Literal (s : List Char) : Prop := s.IsChain fun a b => a = '$' → b ∉ marks

instance (s : List Char) : Decidable (Literal s) :=
  inferInstanceAs (Decidable (s.IsChain fun a b => a = '$' → b ∉ marks))

section Law

variable {pattern replacement : List Char}

theorem expand_literal {before matched behind : List Char} : ∀ {s : List Char}, Literal s →
    expand before matched behind s = s
  | [], _ => by rw [expand]
  | [c], _ => by
    unfold expand
    split <;> simp_all [expand]
  | c :: d :: rest, h => by
    have hrest : expand before matched behind (d :: rest) = d :: rest :=
      expand_literal (List.IsChain.tail h)
    by_cases hc : c = '$'
    · subst hc
      have hd : d ∉ marks := (List.isChain_cons_cons.mp h).1 rfl
      simp only [marks, List.mem_cons, List.not_mem_nil, or_false, not_or] at hd
      rw [expand, if_neg hd.1, if_neg hd.2.1, if_neg hd.2.2.1, if_neg hd.2.2.2, hrest]
    · rw [expand, hrest]
      rintro d' rest' heq
      exact fun _ => hc heq

theorem replaceFrom_literal (h : Literal replacement) : ∀ (s : List Char) (skip : ℕ)
    (before : List Char), replaceFrom pattern replacement skip before s =
      substituteFrom pattern replacement skip s
  | [], skip, before => by
    cases skip <;> rfl
  | c :: rest, skip + 1, before => replaceFrom_literal h rest skip _
  | c :: rest, 0, before => by
    rw [replaceFrom, substituteFrom, expand_literal h, replaceFrom_literal h rest,
      replaceFrom_literal h rest]

/-- **A literal replacement is put in as it is.** -/
theorem replaceAll_literal (h : Literal replacement) (s : List Char) :
    replaceAll pattern replacement s = substitute pattern replacement s :=
  replaceFrom_literal h s 0 []

theorem replaceFrom_absent : ∀ {s before : List Char}, ¬ pattern <:+: s → pattern ≠ [] →
    replaceFrom pattern replacement 0 before s = s
  | [], _, _, _ => rfl
  | c :: rest, before, h, hne => by
    have hhere : pattern.isPrefixOf (c :: rest) = false := by
      rw [Bool.eq_false_iff]
      intro hin
      have hpre := List.isPrefixOf_iff_prefix.mp hin
      exact h hpre.isInfix
    rw [replaceFrom, hhere, if_neg Bool.false_ne_true,
      replaceFrom_absent (fun hin => h (hin.trans (List.suffix_cons c rest).isInfix)) hne]

theorem substituteFrom_absent : ∀ {s : List Char}, ¬ pattern <:+: s →
    substituteFrom pattern replacement 0 s = s
  | [], _ => rfl
  | c :: rest, h => by
    have hhere : pattern.isPrefixOf (c :: rest) = false := by
      rw [Bool.eq_false_iff]
      intro hin
      have hpre := List.isPrefixOf_iff_prefix.mp hin
      exact h hpre.isInfix
    rw [substituteFrom, hhere, if_neg Bool.false_ne_true,
      substituteFrom_absent fun hin => h (hin.trans (List.suffix_cons c rest).isInfix)]

/-- A text without the pattern is left as it is. -/
theorem replaceAll_absent {s : List Char} (h : ¬ pattern <:+: s) :
    replaceAll pattern replacement s = substitute pattern replacement s := by
  by_cases hne : pattern = []
  · exact absurd (hne ▸ List.nil_infix) h
  · rw [replaceAll, substitute, replaceFrom_absent h hne, substituteFrom_absent h]

/-- A pattern of one character is replaced in place. -/
theorem substitute_singleton {c : Char} {v : List Char} (s : List Char) :
    substitute [c] v s = s.flatMap fun d => if d = c then v else [d] := by
  rw [substitute]
  induction s with
  | nil => rfl
  | cons d s ih =>
    rw [substituteFrom, List.flatMap_cons]
    by_cases h : d = c
    · subst h
      rw [if_pos rfl, if_pos (by simp [List.isPrefixOf])]
      exact congrArg (v ++ ·) ih
    · rw [if_neg h, if_neg (by simp [List.isPrefixOf, Ne.symm h]), ih]
      rfl

end Law

end Replacement

end OpenObs.Foundation
