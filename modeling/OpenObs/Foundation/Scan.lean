import Mathlib.Data.List.Basic

/-!
# Scanning text with regular expressions

`s.match(re)` with the global flag and `re.exec(s)`, for expressions whose match at a position is
determined by the characters from there on. A global scan looks for a match at every position from
the left and goes on behind the match it found.
-/

namespace OpenObs.Foundation.Scan

/-- `\s`. -/
def isSpace (c : Char) : Bool :=
  c.toNat ∈ [0x9, 0xA, 0xB, 0xC, 0xD, 0x20, 0xA0, 0x1680, 0x2028, 0x2029, 0x202F, 0x205F,
    0x3000, 0xFEFF] ∨ (0x2000 ≤ c.toNat ∧ c.toNat ≤ 0x200A)

/-- The matches of a global scan; `len` is the length of the match at the head of the text, zero
when there is none. -/
def matchAll (len : List Char → ℕ) : ℕ → List Char → List (List Char)
  | _, [] => []
  | k + 1, _ :: cs => matchAll len k cs
  | 0, c :: cs =>
    match len (c :: cs) with
    | 0 => matchAll len 0 cs
    | n + 1 => (c :: cs).take (n + 1) :: matchAll len n cs

/-- The leftmost match, as what `m` makes of it. -/
def exec {α : Type} (m : List Char → Option α) : List Char → Option α
  | [] => m []
  | c :: cs =>
    match m (c :: cs) with
    | some a => some a
    | none => exec m cs

def expect : List Char → List Char → Option (List Char)
  | [], cs => some cs
  | _ :: _, [] => none
  | l :: ls, c :: cs => if l = c then expect ls cs else none

/-- The text behind `\s+`. -/
def expectSpaces (cs : List Char) : Option (List Char) :=
  if (cs.takeWhile isSpace).isEmpty then none else some (cs.dropWhile isSpace)

/-! ## Pieces of a text -/

/-- No match of `len` reaches a separator. -/
structure Isolates (len : List Char → ℕ) (sep : Char → Bool) : Prop where
  len_le : ∀ u, len u ≤ u.length
  at_sep : ∀ x v, sep x = true → len (x :: v) = 0
  before_sep : ∀ u x v, u ≠ [] → sep x = true → len (u ++ x :: v) = len u

section

variable {len : List Char → ℕ} {sep : Char → Bool}

theorem Isolates.matchAll_append (h : Isolates len sep) {x : Char} {v : List Char}
    (hx : sep x = true) {u : List Char} :
    ∀ {k}, k ≤ u.length →
      matchAll len k (u ++ x :: v) = matchAll len k u ++ matchAll len 0 v := by
  induction u with
  | nil =>
    intro k hk
    obtain rfl : k = 0 := Nat.le_zero.mp hk
    simp only [List.nil_append, matchAll, h.at_sep x v hx]
  | cons c cs ih =>
    intro k hk
    cases k with
    | succ k => exact ih (Nat.le_of_succ_le_succ hk)
    | zero =>
      have hlen : len (c :: (cs ++ x :: v)) = len (c :: cs) :=
        h.before_sep (c :: cs) x v (List.cons_ne_nil c cs) hx
      have hle : len (c :: cs) ≤ cs.length + 1 := h.len_le (c :: cs)
      rw [List.cons_append, matchAll, matchAll, hlen]
      cases hn : len (c :: cs) with
      | zero => exact ih (Nat.zero_le _)
      | succ n =>
        -- the match at the head ends inside the piece
        have hcs : n ≤ cs.length := by omega
        simp only [List.take_succ_cons, ih hcs, List.cons_append,
          List.take_append_of_le_length hcs]

theorem takeWhile_append_stop {p : Char → Bool} {x : Char} (hx : p x = false)
    (u v : List Char) : (u ++ x :: v).takeWhile p = u.takeWhile p := by
  induction u with
  | nil => simp [hx]
  | cons c cs ih => simp [List.takeWhile_cons, ih]

theorem dropWhile_append_stop {p : Char → Bool} {x : Char} (hx : p x = false)
    (u v : List Char) : (u ++ x :: v).dropWhile p = u.dropWhile p ++ x :: v := by
  induction u with
  | nil => simp [hx]
  | cons c cs ih =>
    by_cases hc : p c = true
    · simp [hc, ih]
    · simp [hc]

theorem matchAll_whole {w : List Char} (h : len w = w.length) (hne : w ≠ []) :
    matchAll len 0 w = [w] := by
  have skip : ∀ (cs : List Char) (k : ℕ), cs.length ≤ k → matchAll len k cs = [] := by
    intro cs
    induction cs with
    | nil => intro k _; cases k <;> rfl
    | cons c cs ih =>
      intro k hk
      cases k with
      | zero => exact absurd hk (by simp)
      | succ k => exact ih k (Nat.le_of_succ_le_succ hk)
  cases w with
  | nil => exact absurd rfl hne
  | cons c cs =>
    rw [matchAll, h, List.length_cons]
    simp only [List.take_succ_cons, List.take_length, skip cs cs.length (Nat.le_refl _)]

/-- `w` stands in `t` between separators, or at an end of it. -/
def Delimited (sep : Char → Bool) (w t : List Char) : Prop :=
  ∃ u v, t = u ++ w ++ v ∧ (u = [] ∨ ∃ u' x, sep x = true ∧ u = u' ++ [x]) ∧
    (v = [] ∨ ∃ x v', sep x = true ∧ v = x :: v')

theorem Delimited.refl (w : List Char) : Delimited sep w w :=
  ⟨[], [], by simp, Or.inl rfl, Or.inl rfl⟩

theorem Delimited.trans {w t s : List Char} (hwt : Delimited sep w t)
    (hts : Delimited sep t s) : Delimited sep w s := by
  obtain ⟨u, v, rfl, hu, hv⟩ := hwt
  obtain ⟨u', v', rfl, hu', hv'⟩ := hts
  refine ⟨u' ++ u, v ++ v', by simp, ?_, ?_⟩
  · rcases hu with rfl | ⟨a, x, hx, rfl⟩
    · simpa using hu'
    · exact Or.inr ⟨u' ++ a, x, hx, by simp⟩
  · rcases hv with rfl | ⟨x, b, hx, rfl⟩
    · simpa using hv'
    · exact Or.inr ⟨x, b ++ v', hx, rfl⟩

theorem Delimited.between {w u v : List Char} {x y : Char} (hx : sep x = true)
    (hy : sep y = true) : Delimited sep w (u ++ [x] ++ w ++ y :: v) :=
  ⟨u ++ [x], y :: v, rfl, Or.inr ⟨u, x, hx, rfl⟩, Or.inr ⟨y, v, hy, rfl⟩⟩

theorem Delimited.behind {w u : List Char} {x : Char} (hx : sep x = true) :
    Delimited sep w (u ++ [x] ++ w) :=
  ⟨u ++ [x], [], by simp, Or.inr ⟨u, x, hx, rfl⟩, Or.inl rfl⟩

theorem Delimited.before {w v : List Char} {x : Char} (hx : sep x = true) :
    Delimited sep w (w ++ x :: v) :=
  ⟨[], x :: v, rfl, Or.inl rfl, Or.inr ⟨x, v, hx, rfl⟩⟩

theorem delimited_intercalate {x y : Char} {glue : List Char} (hx : sep x = true)
    (hy : sep y = true) (hglue : ∃ m, glue = x :: m ∧ ∃ l, glue = l ++ [y])
    {w : List Char} {parts : List (List Char)} (hw : w ∈ parts) :
    Delimited sep w (glue.intercalate parts) := by
  obtain ⟨m, hm, l, hl⟩ := hglue
  induction parts with
  | nil => exact absurd hw List.not_mem_nil
  | cons p ps ih =>
    cases ps with
    | nil =>
      obtain rfl := List.mem_singleton.mp hw
      simpa using Delimited.refl w
    | cons q qs =>
      rw [List.intercalate_cons_cons]
      rcases List.mem_cons.mp hw with rfl | hw
      · rw [hm, List.append_assoc, List.cons_append]
        exact Delimited.before hx
      · refine (ih hw).trans ?_
        rw [hl, ← List.append_assoc]
        exact Delimited.behind hy

theorem Isolates.matchAll_delimited (h : Isolates len sep) {w t : List Char}
    (hwt : Delimited sep w t) {s : List Char} (hs : s ∈ matchAll len 0 w) :
    s ∈ matchAll len 0 t := by
  obtain ⟨u, v, rfl, hu, hv⟩ := hwt
  have hright : s ∈ matchAll len 0 (w ++ v) := by
    rcases hv with rfl | ⟨x, v', hx, rfl⟩
    · simpa using hs
    · rw [h.matchAll_append hx (Nat.zero_le _)]
      exact List.mem_append_left _ hs
  rcases hu with rfl | ⟨u', x, hx, rfl⟩
  · simpa using hright
  · rw [List.append_assoc, List.append_assoc, List.singleton_append,
      h.matchAll_append hx (Nat.zero_le _)]
    exact List.mem_append_right _ hright

theorem mem_matchAll {s : List Char} {t : List Char} :
    ∀ {k}, s ∈ matchAll len k t →
      ∃ u v, t = u ++ v ∧ len v ≠ 0 ∧ s = v.take (len v) := by
  induction t with
  | nil =>
    intro k hs
    cases k <;> exact absurd hs List.not_mem_nil
  | cons c cs ih =>
    intro k hs
    have deeper {k' : ℕ} (hk' : s ∈ matchAll len k' cs) :
        ∃ u v, c :: cs = u ++ v ∧ len v ≠ 0 ∧ s = v.take (len v) := by
      obtain ⟨u, v, rfl, hlen, hsv⟩ := ih hk'
      exact ⟨c :: u, v, rfl, hlen, hsv⟩
    cases k with
    | succ k => exact deeper hs
    | zero =>
      rw [matchAll] at hs
      cases hn : len (c :: cs) with
      | zero =>
        rw [hn] at hs
        exact deeper hs
      | succ n =>
        rw [hn] at hs
        rcases List.mem_cons.mp hs with rfl | hs
        · exact ⟨[], c :: cs, rfl, by omega, by rw [hn]⟩
        · exact deeper hs

end

end OpenObs.Foundation.Scan
