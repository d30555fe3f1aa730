import Mathlib.Data.List.DropRight
import OpenObs.Foundation.Machine
import OpenObs.Kubectl.Allowlist

/-!
# Kubectl command strings

`parseKubectlCommandString` and `classifyKubectlCommand` of `kubectl-allowlist.ts`: the argv in a
command that was typed as one string.
-/

namespace OpenObs.Kubectl

open OpenObs.Foundation

/-- What a command is made of. -/
class Coded (α : Type) where
  code : α → ℕ

instance : Coded UInt16 := ⟨UInt16.toNat⟩

instance : Coded Char := ⟨Char.toNat⟩

section Alphabet

variable {α : Type} [Coded α]

/-- `\s`, which is also what `trim` takes off. -/
def isSpace (c : α) : Bool :=
  let u := Coded.code c
  u ∈ [0x9, 0xA, 0xB, 0xC, 0xD, 0x20, 0xA0, 0x1680, 0x2028, 0x2029, 0x202F, 0x205F, 0x3000,
    0xFEFF] || (0x2000 ≤ u && u ≤ 0x200A)

def isSeparator (c : α) : Bool := Coded.code c ∈ [0x20, 0x9, 0xA]

def isQuote (c : α) : Bool := Coded.code c ∈ [0x22, 0x27]

/-- The shell metacharacters: backtick, `$`, `|`, `;`, `&`, `>` and `<`. -/
def isShellMeta (c : α) : Bool := Coded.code c ∈ [0x60, 0x24, 0x7C, 0x3B, 0x26, 0x3E, 0x3C]

/-- `'kubectl'`, as codes. -/
def kubectlCodes : List ℕ := [0x6B, 0x75, 0x62, 0x65, 0x63, 0x74, 0x6C]

def trim (s : List α) : List α := ((s.dropWhile isSpace).reverse.dropWhile isSpace).reverse

variable {c : α}

theorem isSpace_of_isSeparator (h : isSeparator c = true) : isSpace c = true := by
  simp only [isSeparator, List.mem_cons, List.not_mem_nil, or_false, decide_eq_true_eq] at h
  rcases h with h | h | h <;> simp [isSpace, h]

theorem not_isSpace_of_isQuote (h : isQuote c = true) : isSpace c = false := by
  simp only [isQuote, List.mem_cons, List.not_mem_nil, or_false, decide_eq_true_eq] at h
  rcases h with h | h <;> simp [isSpace, h]

theorem not_isSeparator_of_not_isSpace (h : isSpace c = false) : isSeparator c = false := by
  apply Bool.eq_false_iff.mpr
  intro hsep
  rw [isSpace_of_isSeparator hsep] at h
  cases h

end Alphabet

/-! ## The tokenizer -/

structure TokenLoop (α : Type) : Type where
  i : ℕ := 0
  tokens : List (List α) := []
deriving DecidableEq

section Tokenizer

variable {α : Type} [DecidableEq α] [Coded α]

def tokenize (trimmed : List α) (s : TokenLoop α) : Turn (TokenLoop α) (List (List α)) :=
  match trimmed.drop s.i with
  | [] => .returned s.tokens
  | ch :: rest =>
    if isSeparator ch then .again { s with i := s.i + 1 }
    else if isQuote ch then
      let buf := rest.takeWhile (· != ch)
      let j := s.i + 1 + buf.length
      if trimmed.length ≤ j then .returned [] -- unterminated quote
      else .again { i := j + 1, tokens := s.tokens ++ [buf] }
    else
      let buf := (ch :: rest).takeWhile (!isSpace ·)
      .again { i := s.i + buf.length, tokens := s.tokens ++ [buf] }

/-- `if (tokens[0] === 'kubectl') tokens.shift()`. -/
def dropKubectl : List (List α) → List (List α)
  | [] => []
  | t :: ts => if t.map Coded.code = kubectlCodes then ts else t :: ts

/-- `none` is a call that has not returned within `fuel` iterations. -/
def parseKubectlCommandString (fuel : ℕ) (command : List α) : Option (List (List α)) :=
  let trimmed := trim command
  if trimmed = [] then some []
  else if trimmed.any isShellMeta then some []
  else (loop (tokenize trimmed) fuel {}).map dropKubectl

/-! ## Whitespace the loop does not skip -/

/-- Where a reader of the command stands: between arguments, in an unquoted one, or in one that
the given mark opened. -/
inductive Place (α : Type) : Type where
  | between
  | bare
  | quoted (q : α)
deriving DecidableEq

/-- Some whitespace other than a space, a tab or a newline stands outside the quoted arguments. -/
def strays : Place α → List α → Bool
  | _, [] => false
  | .between, c :: cs =>
    if isSeparator c then strays .between cs
    else if isQuote c then strays (.quoted c) cs
    else isSpace c || strays .bare cs
  | .bare, c :: cs =>
    if isSeparator c then strays .between cs
    else isSpace c || strays .bare cs
  | .quoted q, c :: cs => if c = q then strays .between cs else strays (.quoted q) cs

@[simp] theorem strays_nil (p : Place α) : strays p [] = false := by cases p <;> rfl

theorem strays_bare (cs : List α) :
    strays .bare cs = strays .between (cs.drop (cs.takeWhile (!isSpace ·)).length) := by
  induction cs with
  | nil => rfl
  | cons c cs ih =>
    by_cases hspace : isSpace c = true
    · have hquote : isQuote c = false := by
        apply Bool.eq_false_iff.mpr
        intro hq
        rw [not_isSpace_of_isQuote hq] at hspace
        cases hspace
      simp [strays, hspace, hquote]
    · have hsep : isSeparator c = false :=
        not_isSeparator_of_not_isSpace (Bool.eq_false_iff.mpr hspace)
      simp [strays, hspace, hsep, ih]

theorem strays_quoted (q : α) (cs : List α) :
    strays (.quoted q) cs =
      strays .between (cs.drop ((cs.takeWhile (· != q)).length + 1)) := by
  induction cs with
  | nil => rfl
  | cons c cs ih =>
    by_cases hc : c = q
    · simp [strays, hc]
    · simp [strays, hc, ih]

section Iteration

variable {trimmed : List α} {s s' : TokenLoop α} {ch : α} {rest : List α}

theorem drop_behind {i : ℕ} (hd : trimmed.drop i = ch :: rest) (n : ℕ) :
    trimmed.drop (i + 1 + n) = rest.drop n := by
  rw [Nat.add_assoc, ← List.drop_drop, hd, Nat.add_comm, List.drop_succ_cons]

/-! What one iteration does, by what stands at the index. -/

theorem tokenize_separator (hd : trimmed.drop s.i = ch :: rest) (h : isSeparator ch = true) :
    tokenize trimmed s = .again { s with i := s.i + 1 } := by
  simp [tokenize, hd, h]

theorem tokenize_quote (hd : trimmed.drop s.i = ch :: rest) (h : isQuote ch = true) :
    tokenize trimmed s =
      if rest.length ≤ (rest.takeWhile (· != ch)).length then .returned []
      else .again { i := s.i + 1 + (rest.takeWhile (· != ch)).length + 1
                    tokens := s.tokens ++ [rest.takeWhile (· != ch)] } := by
  have hsep : isSeparator ch = false :=
    not_isSeparator_of_not_isSpace (not_isSpace_of_isQuote h)
  have hlen : trimmed.length - s.i = rest.length + 1 := by
    simpa using congrArg List.length hd
  have hiff : trimmed.length ≤ s.i + 1 + (rest.takeWhile (· != ch)).length ↔
      rest.length ≤ (rest.takeWhile (· != ch)).length := by omega
  simp [tokenize, hd, h, hsep, hiff]

theorem tokenize_bare (hd : trimmed.drop s.i = ch :: rest) (hsep : isSeparator ch = false)
    (hquote : isQuote ch = false) :
    tokenize trimmed s =
      .again { i := s.i + ((ch :: rest).takeWhile (!isSpace ·)).length
               tokens := s.tokens ++ [(ch :: rest).takeWhile (!isSpace ·)] } := by
  simp [tokenize, hd, hsep, hquote]

theorem tokenize_end (hd : trimmed.drop s.i = []) : tokenize trimmed s = .returned s.tokens := by
  simp [tokenize, hd]

theorem strays_again (h : tokenize trimmed s = .again s') :
    strays .between (trimmed.drop s'.i) = strays .between (trimmed.drop s.i) := by
  cases hd : trimmed.drop s.i with
  | nil =>
    rw [tokenize_end hd] at h
    cases h
  | cons ch rest =>
    by_cases hsep : isSeparator ch = true
    · rw [tokenize_separator hd hsep] at h
      cases h
      simp [← List.drop_drop, hd, strays, hsep]
    by_cases hquote : isQuote ch = true
    · rw [tokenize_quote hd hquote] at h
      split at h
      · cases h
      · cases h
        rw [Nat.add_assoc, drop_behind hd]
        simp [strays, hsep, hquote, strays_quoted]
    · rw [tokenize_bare hd (Bool.eq_false_iff.mpr hsep) (Bool.eq_false_iff.mpr hquote)] at h
      cases h
      simp only [← List.drop_drop, hd]
      by_cases hspace : isSpace ch = true
      · simp [hspace]
      · simp [strays, hsep, hquote, hspace, strays_bare]

theorem strays_returned {tokens : List (List α)} (h : tokenize trimmed s = .returned tokens) :
    strays .between (trimmed.drop s.i) = false := by
  cases hd : trimmed.drop s.i with
  | nil => rfl
  | cons ch rest =>
    by_cases hsep : isSeparator ch = true
    · rw [tokenize_separator hd hsep] at h
      cases h
    by_cases hquote : isQuote ch = true
    · rw [tokenize_quote hd hquote] at h
      split at h
      next hend =>
        simp [strays, hsep, hquote, strays_quoted,
          List.drop_eq_nil_of_le (Nat.le_succ_of_le hend)]
      · cases h
    · rw [tokenize_bare hd (Bool.eq_false_iff.mpr hsep) (Bool.eq_false_iff.mpr hquote)] at h
      cases h

theorem index_lt (hs : strays .between (trimmed.drop s.i) = false)
    (h : tokenize trimmed s = .again s') : s.i < s'.i := by
  cases hd : trimmed.drop s.i with
  | nil =>
    rw [tokenize_end hd] at h
    cases h
  | cons ch rest =>
    by_cases hsep : isSeparator ch = true
    · rw [tokenize_separator hd hsep] at h
      cases h
      exact Nat.lt_succ_self _
    by_cases hquote : isQuote ch = true
    · rw [tokenize_quote hd hquote] at h
      split at h
      · cases h
      · cases h
        dsimp only
        omega
    · rw [tokenize_bare hd (Bool.eq_false_iff.mpr hsep) (Bool.eq_false_iff.mpr hquote)] at h
      cases h
      -- the argument has at least the character that starts it
      have hspace : isSpace ch = false := by
        simp only [hd, strays, hsep, hquote, Bool.false_eq_true, if_false,
          Bool.or_eq_false_iff] at hs
        exact hs.1
      simp [hspace]

theorem index_in_text (h : tokenize trimmed s = .again s') : s.i < trimmed.length := by
  by_contra hout
  rw [tokenize_end (List.drop_eq_nil_of_le (Nat.le_of_not_lt hout))] at h
  cases h

end Iteration

/-! ## Termination -/

structure Total (command : List α) : Prop where
  advances : trim command ≠ [] → (trim command).any isShellMeta = false →
    ∀ s, Visits (tokenize (trim command)) {} s →
      ∀ s', tokenize (trim command) s = .again s' → s.i < s'.i
  returns : ∃ fuel tokens, parseKubectlCommandString fuel command = some tokens

/-- The condition under which the tokenizer is total: the command holds a shell metacharacter, or
no whitespace but spaces, tabs and newlines outside its quoted arguments. -/
def Tokenizable (command : List α) : Prop :=
  (trim command).any isShellMeta = true ∨ strays .between (trim command) = false

instance (command : List α) : Decidable (Tokenizable command) :=
  inferInstanceAs (Decidable (_ ∨ _))

theorem ahead_of_visits {trimmed : List α} {s : TokenLoop α}
    (h : Visits (tokenize trimmed) {} s) :
    strays .between (trimmed.drop s.i) = strays .between trimmed := by
  refine h.invariant (I := fun s => strays .between (trimmed.drop s.i) = strays .between trimmed)
    ?_ fun s s' hs ht => (strays_again ht).trans hs
  rw [List.drop_zero]

theorem returns_iff {trimmed : List α} :
    Returns (tokenize trimmed) {} ↔ strays .between trimmed = false := by
  constructor
  · intro hreturns
    by_contra hstray
    refine not_returns_of_trap (T := fun s => strays .between (trimmed.drop s.i) = true) ?_
      (by simpa using hstray) hreturns
    intro s hs
    cases ht : tokenize trimmed s with
    | returned tokens => exact absurd (strays_returned ht) (by simp [hs])
    | again s' => exact ⟨s', rfl, (strays_again ht).trans hs⟩
  · intro hclean
    apply returns_of_descending fun s => trimmed.length - s.i
    intro s hv s' hs'
    have hmove : s.i < s'.i := index_lt ((ahead_of_visits hv).trans hclean) hs'
    have htext : s.i < trimmed.length := index_in_text hs'
    omega

theorem parse_returns_iff {command : List α} :
    (∃ fuel tokens, parseKubectlCommandString fuel command = some tokens) ↔
      Tokenizable command := by
  unfold parseKubectlCommandString Tokenizable
  by_cases hempty : trim command = []
  · simp [hempty]
  by_cases hmeta : (trim command).any isShellMeta = true
  · simp [hempty, hmeta]
  · simp only [hempty, hmeta, if_false, false_or, Bool.false_eq_true, Option.map_eq_some_iff]
    rw [← returns_iff]
    constructor
    · rintro ⟨fuel, _, tokens, h, -⟩
      exact ⟨fuel, tokens, h⟩
    · rintro ⟨fuel, tokens, h⟩
      exact ⟨fuel, _, tokens, h, rfl⟩

end Tokenizer

/-- **When the tokenizer is total**, for every string. -/
theorem tokenizer_total_iff (command : List UInt16) : Total command ↔ Tokenizable command := by
  constructor
  · exact fun h => parse_returns_iff.mp h.returns
  · intro h
    refine ⟨fun _ hmeta s hv s' hs' => ?_, parse_returns_iff.mpr h⟩
    rcases h with h | h
    · rw [hmeta] at h
      cases h
    · exact index_lt ((ahead_of_visits hv).trans h) hs'

/-- `get`, a no-break space and `pods`: the loop pushes an empty token and stays where it is. -/
theorem command_hangs : ¬ ∀ command : List UInt16, Total command := by
  intro h
  have := parse_returns_iff.mp (h [0x67, 0x65, 0x74, 0xA0, 0x70, 0x6F, 0x64, 0x73]).returns
  exact absurd this (by decide)

/-! ## Writing a command -/

section Writing

variable {α : Type} [DecidableEq α] [Coded α]

/-- A token as one word of a command: bare, or between two quotation marks of a kind it does
not contain. -/
inductive Written : List α → List α → Prop
  | bare {t : List α} (hne : t ≠ []) (h : ∀ c ∈ t, isSpace c = false ∧ isQuote c = false) :
      Written t t
  | quoted {t : List α} (q : α) (hq : isQuote q = true) (h : q ∉ t) : Written t (q :: (t ++ [q]))

theorem Written.checked {t : List α} (hne : t ≠ [])
    (h : (t.all fun c => !isSpace c && !isQuote c) = true) : Written t t := by
  refine .bare hne fun c hc => ?_
  have hchar := List.all_eq_true.mp h c hc
  rwa [Bool.and_eq_true, Bool.not_eq_true', Bool.not_eq_true'] at hchar

variable {sp : α} {tokens words : List (List α)} {t w u : List α}

theorem takeWhile_run {p : α → Bool} (ht : ∀ c ∈ t, p c = true)
    (hu : ∀ c v, u = c :: v → p c = false) : (t ++ u).takeWhile p = t := by
  rw [List.takeWhile_append_of_pos ht]
  cases u with
  | nil => simp
  | cons c v => simp [hu c v rfl]

theorem tokenize_word {trimmed : List α} {s : TokenLoop α} (h : Written t w)
    (hu : ∀ c v, u = c :: v → isSpace c = true) (hd : trimmed.drop s.i = w ++ u) :
    tokenize trimmed s = .again { i := s.i + w.length, tokens := s.tokens ++ [t] } := by
  cases h with
  | bare hne h =>
    obtain ⟨c, cs, rfl⟩ := List.exists_cons_of_ne_nil hne
    obtain ⟨hspace, hquote⟩ := h c List.mem_cons_self
    have hrun : (c :: cs ++ u).takeWhile (!isSpace ·) = c :: cs :=
      takeWhile_run (fun x hx => by simp [h x hx]) fun x v hx => by simp [hu x v hx]
    have hd' : trimmed.drop s.i = c :: (cs ++ u) := hd
    rw [tokenize_bare hd' (not_isSeparator_of_not_isSpace hspace) hquote, ← List.cons_append, hrun]
  | quoted q hq h =>
    have hd' : trimmed.drop s.i = q :: (t ++ q :: u) := by simpa using hd
    have hrun : (t ++ q :: u).takeWhile (· != q) = t :=
      takeWhile_run (fun x hx => by simpa using fun hxq : x = q => h (hxq ▸ hx))
        fun x v hx => by simp [(List.cons.inj hx).1]
    rw [tokenize_quote hd' hq, hrun, if_neg (by simp)]
    simp [Nat.add_assoc, Nat.add_comm 1]

theorem loop_words {trimmed : List α} (hsp : isSeparator sp = true)
    (h : List.Forall₂ Written tokens words) :
    ∀ s : TokenLoop α, trimmed.drop s.i = [sp].intercalate words →
      ∃ fuel, loop (tokenize trimmed) fuel s = some (s.tokens ++ tokens) := by
  induction h with
  | nil =>
    intro s hd
    exact ⟨1, by simp [loop, tokenize_end hd]⟩
  | @cons t w tokens words hw hrest ih =>
    intro s hd
    cases hrest with
    | nil =>
      have hword := tokenize_word (u := []) hw (by simp) (by simpa using hd)
      have hend : trimmed.drop (s.i + w.length) = [] := by
        rw [← List.drop_drop, hd]
        simp
      exact ⟨2, loop_again hword (by rw [loop, tokenize_end (by exact hend)])⟩
    | @cons t' w' tokens' words' hw' hrest' =>
      rw [List.intercalate_cons_cons, List.append_assoc] at hd
      have hword := tokenize_word hw
        (by intro c v hc; rw [← (List.cons.inj hc).1]; exact isSpace_of_isSeparator hsp) hd
      have hspace : trimmed.drop (s.i + w.length) = sp :: [sp].intercalate (w' :: words') := by
        rw [← List.drop_drop, hd]
        simp
      obtain ⟨fuel, hloop⟩ := ih ⟨s.i + w.length + 1, s.tokens ++ [t]⟩ (by
        rw [← List.drop_drop, hspace]
        rfl)
      refine ⟨fuel + 2, loop_again hword (loop_again (tokenize_separator hspace hsp) ?_)⟩
      simpa using hloop

/-- A text that starts and ends with something `trim` leaves. -/
structure Framed (u : List α) : Prop where
  front : ∃ c v, u = c :: v ∧ isSpace c = false
  back : ∃ v c, u = v ++ [c] ∧ isSpace c = false

theorem Framed.append (hu : Framed u) (hw : Framed w) (t : List α) : Framed (u ++ t ++ w) := by
  obtain ⟨c, v, rfl, hc⟩ := hu.front
  obtain ⟨v', c', rfl, hc'⟩ := hw.back
  exact ⟨⟨c, v ++ t ++ (v' ++ [c']), by simp, hc⟩, ⟨c :: v ++ t ++ v', c', by simp, hc'⟩⟩

theorem Framed.trim (h : Framed u) : trim u = u := by
  obtain ⟨c, v, hfront, hc⟩ := h.front
  obtain ⟨v', c', hback, hc'⟩ := h.back
  have hleft : u.dropWhile isSpace = u := by
    rw [hfront, List.dropWhile_cons_of_neg (by simp [hc])]
  have hright : u.reverse.dropWhile isSpace = u.reverse := by
    rw [hback, List.reverse_append, List.reverse_singleton, List.singleton_append,
      List.dropWhile_cons_of_neg (by simp [hc'])]
  rw [Kubectl.trim, hleft, hright, List.reverse_reverse]

theorem Framed.trim_space (h : Framed u) (hsp : isSpace sp = true) :
    Kubectl.trim (u ++ [sp]) = u := by
  have hself := h.trim
  obtain ⟨c, v, rfl, hc⟩ := h.front
  unfold Kubectl.trim at hself ⊢
  rw [List.dropWhile_cons_of_neg (by simp [hc])] at hself
  rw [List.cons_append, List.dropWhile_cons_of_neg (by simp [hc]), ← List.cons_append,
    List.reverse_append, List.reverse_singleton, List.singleton_append,
    List.dropWhile_cons_of_pos hsp, hself]

theorem Written.framed (h : Written t w) : Framed w := by
  cases h with
  | bare hne h =>
    obtain ⟨c, v, rfl⟩ := List.exists_cons_of_ne_nil hne
    obtain ⟨v', c', hback⟩ := (List.eq_nil_or_concat (c :: v)).resolve_left hne
    refine ⟨⟨c, v, rfl, (h c List.mem_cons_self).1⟩, ⟨v', c', by simpa using hback, ?_⟩⟩
    exact (h c' (by rw [hback]; simp)).1
  | quoted q hq h =>
    exact ⟨⟨q, t ++ [q], rfl, not_isSpace_of_isQuote hq⟩,
      ⟨q :: t, q, rfl, not_isSpace_of_isQuote hq⟩⟩

theorem Written.meta (h : Written t w) (ht : t.any isShellMeta = false) :
    w.any isShellMeta = false := by
  cases h with
  | bare hne h => exact ht
  | quoted q hq h =>
    have hmark : isShellMeta q = false := by
      simp only [isQuote, List.mem_cons, List.not_mem_nil, or_false, decide_eq_true_eq] at hq
      rcases hq with hq | hq <;> simp [isShellMeta, hq]
    simp [ht, hmark]

theorem framed_line (h : List.Forall₂ Written tokens words) (hne : words ≠ []) :
    Framed ([sp].intercalate words) := by
  induction h with
  | nil => exact absurd rfl hne
  | @cons t w tokens words hw hrest ih =>
    cases hrest with
    | nil =>
      rw [List.intercalate_singleton]
      exact hw.framed
    | @cons t' w' tokens' words' hw' hrest' =>
      rw [List.intercalate_cons_cons]
      exact hw.framed.append (ih (List.cons_ne_nil _ _)) [sp]

theorem line_meta (hsp : isShellMeta sp = false) (h : List.Forall₂ Written tokens words)
    (ht : ∀ t ∈ tokens, t.any isShellMeta = false) :
    ([sp].intercalate words).any isShellMeta = false := by
  induction h with
  | nil => rfl
  | @cons t w tokens words hw hrest ih =>
    have hword : w.any isShellMeta = false := hw.meta (ht t List.mem_cons_self)
    have htail := ih fun t' ht' => ht t' (List.mem_cons_of_mem _ ht')
    cases hrest with
    | nil => simpa using hword
    | @cons t' w' tokens' words' hw' hrest' =>
      rw [List.intercalate_cons_cons, List.any_append, List.any_append, hword, htail]
      simp [hsp]

end Writing

/-- `'kubectl '` and the words, joined by single spaces. -/
def commandLine (words : List (List UInt16)) : List UInt16 :=
  kubectlCodes.map UInt16.ofNat ++ 0x20 :: [0x20].intercalate words

theorem trim_commandLine {tokens words : List (List UInt16)}
    (h : List.Forall₂ Written tokens words) :
    trim (commandLine words) =
      [0x20].intercalate (kubectlCodes.map UInt16.ofNat :: words) := by
  have hkubectl : Written (kubectlCodes.map UInt16.ofNat) (kubectlCodes.map UInt16.ofNat) :=
    .checked (by decide) (by decide)
  have hframed : Framed ([0x20].intercalate (kubectlCodes.map UInt16.ofNat :: words)) :=
    framed_line (h.cons hkubectl) (List.cons_ne_nil _ _)
  cases words with
  | nil => exact hframed.trim_space (by decide)
  | cons w ws =>
    have hsame : commandLine (w :: ws) =
        [0x20].intercalate (kubectlCodes.map UInt16.ofNat :: w :: ws) := by
      rw [commandLine, List.intercalate_cons_cons]
      simp
    rw [hsame]
    exact hframed.trim

/-- **The round trip**: the tokens of a command line are the tokens it was written from. -/
theorem parse_commandLine (tokens words : List (List UInt16))
    (hwritten : List.Forall₂ Written tokens words)
    (hmeta : ∀ t ∈ tokens, t.any isShellMeta = false) :
    ∃ n, ∀ fuel ≥ n, parseKubectlCommandString fuel (commandLine words) = some tokens := by
  have hkubectl : Written (kubectlCodes.map UInt16.ofNat) (kubectlCodes.map UInt16.ofNat) :=
    .checked (by decide) (by decide)
  have hall := hwritten.cons hkubectl
  have hline : [0x20].intercalate (kubectlCodes.map UInt16.ofNat :: words) ≠ [] := by
    obtain ⟨c, v, hfront, -⟩ := (framed_line hall (List.cons_ne_nil _ _)).front
    rw [hfront]
    exact List.cons_ne_nil c v
  have hclean : ([0x20].intercalate (kubectlCodes.map UInt16.ofNat :: words)).any isShellMeta =
      false := by
    refine line_meta (by decide) hall fun t ht => ?_
    rcases List.mem_cons.mp ht with rfl | ht
    · decide
    · exact hmeta t ht
  have hsep : isSeparator (0x20 : UInt16) = true := by decide
  obtain ⟨n, hloop⟩ := loop_words hsep hall {} List.drop_zero
  refine ⟨n, fun fuel hfuel => ?_⟩
  have hdrop : dropKubectl (kubectlCodes.map UInt16.ofNat :: tokens) = tokens := by
    rw [dropKubectl, if_pos (by decide)]
  rw [parseKubectlCommandString, trim_commandLine hwritten, if_neg hline,
    if_neg (by simp [hclean]), loop_mono hfuel hloop, Option.map_some, List.nil_append, hdrop]

/-- A bare flag, a quoted text, an empty token and a token with a mark of the other kind. -/
theorem parse_commandLine_sample :
    ∃ n, ∀ fuel ≥ n, parseKubectlCommandString fuel
      (commandLine [[0x2D, 0x6C], [0x22, 0x61, 0x20, 0x62, 0x22], [0x27, 0x27],
        [0x27, 0x22, 0x27]]) =
      some [[0x2D, 0x6C], [0x61, 0x20, 0x62], [], [0x22]] :=
  parse_commandLine _ _
    (.cons (.checked (by decide) (by decide)) (.cons (.quoted 0x22 (by decide) (by decide))
      (.cons (.quoted 0x27 (by decide) (by decide)) (.cons (.quoted 0x27 (by decide) (by decide))
        .nil)))) (by decide)

/-! ## The classifier -/

inductive KubectlDecision : Type where
  | read | approvalRequired | denied
deriving DecidableEq

structure KubectlCommandPolicy where
  decision : KubectlDecision
  reason : String
  argv : List String
deriving DecidableEq

def AllowlistDecision.reason? : AllowlistDecision → Option String
  | .allow => none
  | .deny reason => some reason

/-- `toLowerCase` is the language's. -/
def classifyKubectlCommand (toLowerCase : String → String) (fuel : ℕ) (command : String)
    (allowedNamespaces : List String) : Option KubectlCommandPolicy :=
  let trimmed := trim command.toList
  if trimmed = [] then some ⟨.denied, "empty kubectl command", []⟩
  else if Text.startsWith (toLowerCase (String.ofList trimmed)) "kubectl " = false then
    some ⟨.denied, "only kubectl commands are supported for Kubernetes connectors", []⟩
  else
    (parseKubectlCommandString fuel trimmed).map fun tokens =>
      let argv := tokens.map String.ofList
      if argv = [] then ⟨.denied, "kubectl command could not be parsed safely", []⟩
      else
        let readDecision := checkKubectl argv .read allowedNamespaces
        if readDecision = .allow then ⟨.read, "read-only inspection command", argv⟩
        else
          let writeDecision := checkKubectl argv .write allowedNamespaces
          if writeDecision = .allow then ⟨.approvalRequired, "mutating cluster command", argv⟩
          else
            ⟨.denied, (writeDecision.reason?.or readDecision.reason?).getD
              "kubectl command rejected", argv⟩

theorem not_isKubectlWrite_of_isKubectlRead {parsed : ParsedKubectl}
    (h : isKubectlRead parsed = true) : isKubectlWrite parsed = false := by
  simp only [isKubectlRead, Bool.or_eq_true, Bool.and_eq_true, decide_eq_true_eq] at h
  rcases h with (h | ⟨⟨hverb, -⟩, hsub⟩) | ⟨⟨hverb, -⟩, -⟩
  · have hdisjoint : ∀ v ∈ READ_VERBS, v ∉ WRITE_VERBS ∧ v ≠ "rollout" := by decide +kernel
    simp [isKubectlWrite, hdisjoint _ h]
  · have hdisjoint : ∀ v ∈ ROLLOUT_READ_SUBCOMMANDS, v ∉ ROLLOUT_WRITE_SUBCOMMANDS := by
      decide +kernel
    simp [isKubectlWrite, hverb, hdisjoint _ hsub]
  · have hverb' : "config" ∉ WRITE_VERBS ∧ "config" ≠ "rollout" := by decide +kernel
    simp [isKubectlWrite, hverb, hverb']

theorem checkKubectl_write_of_read {argv allowed : List String}
    (h : checkKubectl argv .read allowed = .allow) : checkKubectl argv .write allowed = .allow := by
  unfold checkKubectl at h ⊢
  by_cases hargv : argv = []
  · simp [hargv] at h
  by_cases hverb : (parseKubectlArgv argv).verb = ""
  · simp [hargv, hverb] at h
  by_cases hdenied : (parseKubectlArgv argv).verb ∈ PERMANENT_DENY_VERBS
  · simp [hargv, hverb, hdenied] at h
  by_cases has : (parseKubectlArgv argv).hasAuthCanIAs = true
  · simp [hargv, hverb, hdenied, has] at h
  by_cases hsecret : isSecretRead (parseKubectlArgv argv) = true
  · simp [hargv, hverb, hdenied, has, hsecret] at h
  by_cases hdelete : isSecretDelete (parseKubectlArgv argv) = true
  · simp [hargv, hverb, hdenied, has, hsecret, hdelete] at h
  simp only [hargv, hverb, hdenied, has, hsecret, hdelete, if_false, Bool.false_eq_true] at h ⊢
  -- what is left is the table of the mode and the namespace
  by_cases hread : isKubectlRead (parseKubectlArgv argv) = true
  · simpa [hread, not_isKubectlWrite_of_isKubectlRead hread] using h
  · simp [hread] at h

theorem checkKubectl_denied {argv allowed : List String} {mode : KubectlMode}
    (h : (parseKubectlArgv argv).verb ∈ PERMANENT_DENY_VERBS) :
    checkKubectl argv mode allowed ≠ .allow := by
  have hverb : (parseKubectlArgv argv).verb ≠ "" := by
    intro hempty
    rw [hempty] at h
    exact absurd h (by decide)
  unfold checkKubectl
  split
  · simp
  · simp [hverb, h]

theorem trim_trim {α : Type} [Coded α] (s : List α) : trim (trim s) = trim s := by
  have hfront : (trim s).dropWhile isSpace = trim s := by
    cases hs : trim s with
    | nil => rfl
    | cons c cs =>
      -- the first of what is left is the first behind the leading whitespace
      obtain ⟨tail, htail⟩ := List.rdropWhile_prefix isSpace (s.dropWhile isSpace)
      have hhead : s.dropWhile isSpace = c :: (cs ++ tail) := by
        rw [← htail, ← List.cons_append, ← hs]
        rfl
      have hc : isSpace c = false := by
        have hne : s.dropWhile isSpace ≠ [] := by
          rw [hhead]
          exact List.cons_ne_nil _ _
        simpa [hhead] using List.head_dropWhile_not isSpace hne
      rw [List.dropWhile_cons_of_neg (by simp [hc])]
  rw [trim, hfront]
  exact List.rdropWhile_idempotent isSpace (s.dropWhile isSpace)

theorem parse_trim {α : Type} [DecidableEq α] [Coded α] (fuel : ℕ) (s : List α) :
    parseKubectlCommandString fuel (trim s) = parseKubectlCommandString fuel s := by
  rw [parseKubectlCommandString, parseKubectlCommandString, trim_trim]

theorem read_of_classify {toLowerCase : String → String} {fuel : ℕ} {command : String}
    {allowed : List String} {policy : KubectlCommandPolicy}
    (h : classifyKubectlCommand toLowerCase fuel command allowed = some policy)
    (hread : policy.decision = .read) :
    parseKubectlCommandString fuel command.toList = some (policy.argv.map String.toList) ∧
      checkKubectl policy.argv .read allowed = .allow := by
  unfold classifyKubectlCommand at h
  dsimp only at h
  split at h
  · cases h
    cases hread
  split at h
  · cases h
    cases hread
  obtain ⟨tokens, hparse, hpolicy⟩ := Option.map_eq_some_iff.mp h
  rw [parse_trim] at hparse
  split at hpolicy
  · rw [← hpolicy] at hread
    cases hread
  split at hpolicy
  next hallow =>
    rw [← hpolicy, List.map_map]
    have hback : String.toList ∘ String.ofList = id := funext fun _ => String.toList_ofList
    rw [hback, List.map_id]
    exact ⟨hparse, hallow⟩
  · split at hpolicy <;> rw [← hpolicy] at hread <;> cases hread

/-- **The modes are ordered**, denied verbs pass in neither, and the classifier answers `read`
for nothing the read mode refuses. -/
theorem kubectl_modes_ordered :
    (∀ argv allowed, checkKubectl argv .read allowed = .allow →
      checkKubectl argv .write allowed = .allow) ∧
    (∀ argv mode allowed, (parseKubectlArgv argv).verb ∈ PERMANENT_DENY_VERBS →
      checkKubectl argv mode allowed ≠ .allow) ∧
    ∀ toLowerCase fuel command allowed policy,
      classifyKubectlCommand toLowerCase fuel command allowed = some policy →
      policy.decision = .read →
      parseKubectlCommandString fuel command.toList = some (policy.argv.map String.toList) ∧
        checkKubectl policy.argv .read allowed = .allow :=
  ⟨fun _ _ => checkKubectl_write_of_read, fun _ _ _ => checkKubectl_denied,
    fun _ _ _ _ _ => read_of_classify⟩

theorem kubectl_modes_ordered_get :
    checkKubectl ["get", "pods", "-n", "app"] .write ["app"] = .allow ∧
    checkKubectl ["exec", "web-0"] .write ["app"] ≠ .allow ∧
    parseKubectlCommandString 9 "kubectl get pods".toList =
        some ["get".toList, "pods".toList] ∧
      checkKubectl ["get", "pods"] .read ["app"] = .allow :=
  ⟨kubectl_modes_ordered.1 ["get", "pods", "-n", "app"] ["app"] (by decide +kernel),
    kubectl_modes_ordered.2.1 ["exec", "web-0"] .write ["app"] (by decide +kernel),
    kubectl_modes_ordered.2.2 id 9 "kubectl get pods" ["app"]
      ⟨.read, "read-only inspection command", ["get", "pods"]⟩ (by decide +kernel) rfl⟩

end OpenObs.Kubectl
