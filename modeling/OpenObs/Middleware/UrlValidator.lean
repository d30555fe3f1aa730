import Mathlib.Data.Fintype.Prod
import OpenObs.Foundation.Text

/-!
# Private addresses

`utils/url-validator.ts`: hosts on private networks are told by the text of the host. A literal
address is given by how it is spelled; `isIP`, the parser of URLs and the lookup are parameters.
-/

namespace OpenObs.Middleware

open OpenObs.Foundation

/-! ## Literal addresses -/

structure Quad where
  a : Fin 256
  b : Fin 256
  c : Fin 256
  d : Fin 256
deriving DecidableEq

structure Group where
  digits : List (Fin 16 × Bool)
  pos : digits ≠ []
  short : digits.length ≤ 4

/-- The groups before `::`, or all of them; those behind it; the IPv4 address at the end. -/
structure V6 where
  head : List Group
  tail : Option (List Group)
  quad : Option Quad
  full : match tail with
    | none => head.length + 2 * quad.toList.length = 8
    | some t => head.length + t.length + 2 * quad.toList.length ≤ 7

def lowerDigits : List Char := "0123456789abcdef".toList

def upperDigits : List Char := "0123456789ABCDEF".toList

def lowerDigit (d : Fin 16) : Char := lowerDigits.getD d '0'

def digitText (d : Fin 16 × Bool) : Char :=
  if d.2 then upperDigits.getD d.1 '0' else lowerDigit d.1

def Group.text (g : Group) : List Char := g.digits.map digitText

def Group.value (g : Group) : ℕ := g.digits.foldl (fun n d => 16 * n + d.1.val) 0

def Quad.octets (q : Quad) : List (Fin 256) := [q.a, q.b, q.c, q.d]

def octetText (n : Fin 256) : List Char := Nat.toDigits 10 n.val

def Quad.text (q : Quad) : List Char := ['.'].intercalate (q.octets.map octetText)

def V6.last (l : V6) : List (List Char) := l.quad.toList.map Quad.text

def V6.text (l : V6) : List Char :=
  match l.tail with
  | none => [':'].intercalate (l.head.map Group.text ++ l.last)
  | some t => [':'].intercalate (l.head.map Group.text) ++
      ':' :: ':' :: [':'].intercalate (t.map Group.text ++ l.last)

def Quad.groups (q : Quad) : List ℕ := [256 * q.a + q.b, 256 * q.c + q.d]

def V6.value (l : V6) : List ℕ :=
  let behind := (l.tail.getD []).map Group.value ++ l.quad.toList.flatMap Quad.groups
  l.head.map Group.value ++
    (List.replicate (8 - (l.head.length + behind.length)) 0 ++ behind)

def V6.first (l : V6) : ℕ := l.value.headD 0

inductive Literal : Type where
  | v4 (q : Quad)
  | v6 (l : V6)

def Literal.text : Literal → List Char
  | v4 q => q.text
  | v6 l => l.text

def Quad.Private (q : Quad) : Prop :=
  q.a.val = 127 ∨ q.a.val = 10 ∨ (q.a.val = 172 ∧ 16 ≤ q.b.val ∧ q.b.val ≤ 31) ∨
    (q.a.val = 192 ∧ q.b.val = 168) ∨ (q.a.val = 169 ∧ q.b.val = 254) ∨ q = ⟨0, 0, 0, 0⟩

def V6.loopback : List ℕ := [0, 0, 0, 0, 0, 0, 0, 1]

def V6.mapped (q : Quad) : List ℕ := [0, 0, 0, 0, 0, 0xffff] ++ q.groups

def V6.Private (l : V6) : Prop :=
  l.value = V6.loopback ∨ (∃ q : Quad, q.Private ∧ l.value = V6.mapped q) ∨
    (0xfc00 ≤ l.first ∧ l.first ≤ 0xfdff) ∨ (0xfe80 ≤ l.first ∧ l.first ≤ 0xfebf)

def Literal.Private : Literal → Prop
  | v4 q => q.Private
  | v6 l => l.Private

/-! ## The code -/

def toLowerCase (s : List Char) : List Char := s.map Char.toLower

/-- `hostname.replace(/^\[|\]$/g, '')`. -/
def stripBrackets (s : List Char) : List Char :=
  let s := if s.head? = some '[' then s.tail else s
  if s.getLast? = some ']' then s.dropLast else s

/-- `Number.parseInt(part, 10)` of digits. -/
def parseInt (part : List Char) : ℕ := part.foldl (fun n c => 10 * n + (c.toNat - '0'.toNat)) 0

def privateOctets : List ℕ → Bool
  | [] => false
  | [a] => a = 10 ∨ a = 127
  | a :: b :: _ => a = 10 ∨ a = 127 ∨ (a = 169 ∧ b = 254) ∨ (a = 172 ∧ 16 ≤ b ∧ b ≤ 31) ∨
      (a = 192 ∧ b = 168)

def isPrivateHost (isIP : List Char → ℕ) (hostname : List Char) : Bool :=
  let normalized := toLowerCase (stripBrackets hostname)
  if normalized = "localhost".toList ∨ normalized = "0.0.0.0".toList ∨ normalized = "::1".toList ∨
      ".localhost".toList <:+ normalized then true
  else if isIP normalized = 4 then privateOctets ((normalized.splitOn '.').map parseInt)
  else if isIP normalized = 6 then
    ['f', 'c'] <+: normalized ∨ ['f', 'd'] <+: normalized ∨ ['f', 'e', '8', '0', ':'] <+: normalized
  else false

structure Url where
  protocol : String
  hostname : List Char

/-- `OPENOBS_ALLOW_PRIVATE_URLS`, else anything but production. -/
def privateUrlsAllowed (env : String → Option String) : Bool :=
  match env "OPENOBS_ALLOW_PRIVATE_URLS" with
  | some "true" => true
  | some "false" => false
  | _ => env "NODE_ENV" ≠ some "production"

/-- `lookup` fails, times out, or has an address. -/
def ensureSafeUrl (isIP : List Char → ℕ) (env : String → Option String) (newUrl : Option Url)
    (lookup : List Char → Except String (Option (List Char))) : Except String Url :=
  match newUrl with
  | none => .error "URL must be a valid absolute URL"
  | some parsed =>
    if parsed.protocol ≠ "https:" ∧ parsed.protocol ≠ "http:" then
      .error "URL must use http or https"
    else if privateUrlsAllowed env = true then .ok parsed
    else if isPrivateHost isIP parsed.hostname then
      .error ("URL host is not allowed (private/loopback address). Set " ++
        "OPENOBS_ALLOW_PRIVATE_URLS=true to enable access to localhost or RFC1918 ranges.")
    else if isIP parsed.hostname ≠ 0 then .ok parsed
    else
      match lookup parsed.hostname with
      | .ok (some address) =>
        if isPrivateHost isIP address then
          .error "URL host resolves to a blocked (private/loopback) address"
        else .ok parsed
      | .ok none => .ok parsed
      | .error e => if "blocked".toList <:+: e.toList then .error e else .ok parsed

/-! ## The guard on literals -/

/-- What is assumed of `isIP`. -/
structure Recognises (isIP : List Char → ℕ) : Prop where
  v4 : ∀ q : Quad, isIP q.text = 4
  v6 : ∀ l : V6, isIP l.text = 6
  anyCase : ∀ s, isIP (toLowerCase s) = isIP s

/-- The guard is right about the literal: as a host, with its brackets or without them, and as an
address that was looked up. -/
structure Guards (isIP : List Char → ℕ) (l : Literal) : Prop where
  agrees : isPrivateHost isIP l.text = true ↔ l.Private
  host : ∀ env newUrl lookup u, privateUrlsAllowed env = false →
    ensureSafeUrl isIP env newUrl lookup = .ok u →
    u.hostname = l.text ∨ u.hostname = '[' :: l.text ++ [']'] → ¬ l.Private
  looked : ∀ env newUrl lookup u, privateUrlsAllowed env = false →
    ensureSafeUrl isIP env newUrl lookup = .ok u → isIP u.hostname = 0 →
    lookup u.hostname = .ok (some l.text) → ¬ l.Private

def V6.Missed (l : V6) : Prop :=
  (l.value = V6.loopback ∧ toLowerCase l.text ≠ "::1".toList) ∨
    (∃ q : Quad, q.Private ∧ l.value = V6.mapped q) ∨ (0xfe80 < l.first ∧ l.first ≤ 0xfebf)

def V6.Mistaken (l : V6) : Prop :=
  ∃ g ∈ l.head.head?, g.digits.length < 4 ∧ ∃ d more, g.digits.map (·.1) = 15 :: d :: more ∧
    (d = 12 ∨ d = 13)

def Literal.Plain : Literal → Prop
  | v4 _ => True
  | v6 l => ¬ l.Missed ∧ ¬ l.Mistaken

/-! ## Texts -/

section Texts

variable {isIP : List Char → ℕ} {q : Quad} {l : V6} {g : Group} {s rest : List Char}

def literalChars : List Char := upperDigits ++ lowerDigits ++ [':', '.']

theorem octetText_spec (n : Fin 256) : (octetText n).all (fun c => c ∈ literalChars ∧ c ≠ ':' ∧
    c ≠ '.' ∧ c.toLower = c) ∧ parseInt (octetText n) = n.val ∧
    (octetText n = ['0'] ↔ n = 0) := by
  revert n
  decide +kernel

theorem digitText_spec (d : Fin 16 × Bool) : digitText d ∈ literalChars ∧ digitText d ≠ ':' ∧
    (digitText d).toLower = lowerDigit d.1 := by
  revert d
  decide

theorem lowerDigit_injective : Function.Injective lowerDigit := by decide

theorem octet_char {c : Char} (h : c ∈ q.text) :
    c = '.' ∨ (c ∈ literalChars ∧ c ≠ ':' ∧ c ≠ '.' ∧ c.toLower = c) := by
  rcases Text.mem_intercalate h with h | ⟨v, hv, h⟩
  · exact Or.inl (List.mem_singleton.mp h)
  · obtain ⟨n, -, rfl⟩ := List.mem_map.mp hv
    have hall := List.all_eq_true.mp (octetText_spec n).1 c h
    exact Or.inr (of_decide_eq_true hall)

theorem group_char {c : Char} (h : c ∈ g.text) : c ∈ literalChars ∧ c ≠ ':' := by
  obtain ⟨d, -, rfl⟩ := List.mem_map.mp h
  exact ⟨(digitText_spec d).1, (digitText_spec d).2.1⟩

theorem quad_chars : q.text ⊆ literalChars := by
  intro c hc
  rcases octet_char hc with rfl | ⟨h, -⟩
  · decide
  · exact h

theorem parts_chars {gs : List Group} {p : List Char} (h : p ∈ gs.map Group.text ++ l.last) :
    p ⊆ literalChars ∧ ':' ∉ p ∧ p ≠ [] := by
  rcases List.mem_append.mp h with h | h
  · obtain ⟨g, -, rfl⟩ := List.mem_map.mp h
    refine ⟨fun c hc => (group_char hc).1, fun hc => (group_char hc).2 rfl, fun hnil => g.pos ?_⟩
    exact List.map_eq_nil_iff.mp hnil
  · obtain ⟨q, -, rfl⟩ := List.mem_map.mp h
    refine ⟨quad_chars, fun hc => ?_, ?_⟩
    · rcases octet_char hc with hdot | ⟨-, hne, -⟩
      · cases hdot
      · exact hne rfl
    · rw [Quad.text, Quad.octets, List.map_cons, List.map_cons, List.intercalate_cons_cons]
      simp

theorem joined_chars {gs : List Group} :
    [':'].intercalate (gs.map Group.text ++ l.last) ⊆ literalChars := by
  intro c hc
  rcases Text.mem_intercalate hc with h | ⟨p, hp, h⟩
  · rw [List.mem_singleton.mp h]
    decide
  · exact (parts_chars hp).1 h

theorem literal_chars : ∀ l : Literal, l.text ⊆ literalChars
  | .v4 q => quad_chars
  | .v6 l => by
    show l.text ⊆ literalChars
    unfold V6.text
    split
    · exact joined_chars
    · have hhead : [':'].intercalate (l.head.map Group.text) ⊆ literalChars := by
        intro c hc
        rcases Text.mem_intercalate hc with h | ⟨p, hp, h⟩
        · rw [List.mem_singleton.mp h]
          decide
        · exact (parts_chars (l := l) (List.mem_append_left _ hp)).1 h
      refine List.append_subset.mpr ⟨hhead, ?_⟩
      refine List.cons_subset.mpr ⟨by decide, List.cons_subset.mpr ⟨by decide, joined_chars⟩⟩

theorem strip_literal (h : s ⊆ literalChars) : stripBrackets s = s := by
  have hhead : s.head? ≠ some '[' := fun heq => absurd (h (List.mem_of_head? heq)) (by decide)
  have hlast : s.getLast? ≠ some ']' := fun heq =>
    absurd (h (List.mem_of_getLast? heq)) (by decide)
  rw [stripBrackets, if_neg hhead]
  exact if_neg hlast

theorem strip_brackets (h : s ⊆ literalChars) : stripBrackets ('[' :: s ++ [']']) = s := by
  have hlast : (s ++ [']']).getLast? = some ']' := List.getLast?_concat
  have hhead : ('[' :: s ++ [']']).head? = some '[' := rfl
  rw [stripBrackets]
  simp only [if_pos hhead]
  show (if (s ++ [']']).getLast? = some ']' then (s ++ [']']).dropLast else s ++ [']']) = s
  rw [if_pos hlast, List.dropLast_concat]

theorem bracketed (h : s ⊆ literalChars) :
    isPrivateHost isIP ('[' :: s ++ [']']) = isPrivateHost isIP s := by
  rw [isPrivateHost, isPrivateHost, strip_brackets h, strip_literal h]

theorem isPrivateHost_literal (hip : Recognises isIP) (h : s ⊆ literalChars) :
    isPrivateHost isIP s = true ↔ toLowerCase s = "0.0.0.0".toList ∨
      toLowerCase s = "::1".toList ∨
      (isIP s = 4 ∧ privateOctets (((toLowerCase s).splitOn '.').map parseInt) = true) ∨
      (isIP s = 6 ∧ (['f', 'c'] <+: toLowerCase s ∨ ['f', 'd'] <+: toLowerCase s ∨
        ['f', 'e', '8', '0', ':'] <+: toLowerCase s)) := by
  have hlower : literalChars.all (fun c => c.toLower ≠ 'l') = true := by decide
  have hno : 'l' ∉ toLowerCase s := by
    rintro hin
    obtain ⟨c, hc, heq⟩ := List.mem_map.mp hin
    exact of_decide_eq_true (List.all_eq_true.mp hlower c (h hc)) heq
  have hlocal : toLowerCase s ≠ "localhost".toList := fun heq => hno (heq ▸ by decide)
  have hsuffix : ¬ ".localhost".toList <:+ toLowerCase s := fun hs => hno (hs.subset (by decide))
  have hspecial : (toLowerCase s = "localhost".toList ∨ toLowerCase s = "0.0.0.0".toList ∨
      toLowerCase s = "::1".toList ∨ ".localhost".toList <:+ toLowerCase s) ↔
      (toLowerCase s = "0.0.0.0".toList ∨ toLowerCase s = "::1".toList) :=
    ⟨fun h => (h.resolve_left hlocal).imp_right fun h => h.resolve_right hsuffix,
      fun h => Or.inr (h.imp_right Or.inl)⟩
  rw [← or_assoc, isPrivateHost, strip_literal h]
  by_cases hcase : toLowerCase s = "0.0.0.0".toList ∨ toLowerCase s = "::1".toList
  · rw [if_pos (hspecial.mpr hcase)]
    exact iff_of_true rfl (Or.inl hcase)
  · rw [if_neg fun h => hcase (hspecial.mp h), hip.anyCase]
    refine Iff.trans ?_ (or_iff_right hcase).symm
    by_cases h4 : isIP s = 4
    · rw [if_pos h4, h4]
      simp only [true_and, Nat.reduceEqDiff, false_and, or_false]
    · rw [if_neg h4]
      by_cases h6 : isIP s = 6
      · rw [if_pos h6, h6, decide_eq_true_eq]
        simp only [Nat.reduceEqDiff, false_and, true_and, false_or]
      · rw [if_neg h6]
        exact iff_of_false Bool.false_ne_true fun h => h.elim (h4 ·.1) (h6 ·.1)

end Texts

/-! ## IPv4 -/

section Ranges

variable {isIP : List Char → ℕ} {q : Quad} {l : V6} {g : Group} {s rest : List Char}

theorem lower_quad : toLowerCase q.text = q.text := by
  refine (List.map_congr_left fun c hc => ?_).trans (List.map_id' q.text)
  rcases octet_char hc with rfl | ⟨-, -, -, h⟩
  · rfl
  · exact h

theorem split_quad : q.text.splitOn '.' = q.octets.map octetText := by
  refine List.splitOn_intercalate _ (fun v hv hdot => ?_) (List.cons_ne_nil _ _)
  obtain ⟨n, -, rfl⟩ := List.mem_map.mp hv
  exact (of_decide_eq_true (List.all_eq_true.mp (octetText_spec n).1 _ hdot)).2.2.1 rfl

theorem zero_quad : q.text = "0.0.0.0".toList ↔ q = ⟨0, 0, 0, 0⟩ := by
  constructor
  · intro h
    have hsplit := split_quad.symm.trans (congrArg (List.splitOn '.') h)
    have hzero : "0.0.0.0".toList.splitOn '.' = [['0'], ['0'], ['0'], ['0']] := by decide
    rw [hzero] at hsplit
    simp only [Quad.octets, List.map_cons, List.map_nil, List.cons.injEq, and_true,
      (octetText_spec _).2.2] at hsplit
    obtain ⟨ha, hb, hc, hd⟩ := hsplit
    cases q
    simp_all
  · rintro rfl
    decide

theorem private_quad (hip : Recognises isIP) :
    isPrivateHost isIP q.text = true ↔ q.Private := by
  have hcolon : q.text ≠ "::1".toList := by
    intro h
    have hin : ':' ∈ q.text := h ▸ by decide
    rcases octet_char hin with hdot | ⟨-, hne, -⟩
    · cases hdot
    · exact hne rfl
  have hparts : (q.octets.map octetText).map parseInt = [q.a.val, q.b.val, q.c.val, q.d.val] := by
    simp only [Quad.octets, List.map_cons, List.map_nil, (octetText_spec _).2.1]
  rw [isPrivateHost_literal hip quad_chars, lower_quad, zero_quad, split_quad, hparts, hip.v4]
  simp only [hcolon, privateOctets, Quad.Private, decide_eq_true_eq]
  grind

end Ranges

/-! ## IPv6 -/

section Groups

variable {isIP : List Char → ℕ} {l : V6} {g : Group} {gs : List Group} {rest : List Char}

def Group.numbers (g : Group) : List (Fin 16) := g.digits.map (·.1)

theorem prefix_digits {rest : List Char} : ∀ {as ds : List (Fin 16)},
    as.map lowerDigit <+: ds.map lowerDigit ++ ':' :: rest ↔ as <+: ds
  | [], ds => by simp
  | a :: as, [] => by
    have hne : ∀ a, lowerDigit a ≠ ':' := by decide
    simp [hne a]
  | a :: as, d :: ds => by
    rw [List.map_cons, List.map_cons, List.cons_append, List.cons_prefix_cons,
      List.cons_prefix_cons, prefix_digits, lowerDigit_injective.eq_iff]

theorem prefix_group {rest : List Char} : ∀ {as ds : List (Fin 16)},
    as.map lowerDigit ++ [':'] <+: ds.map lowerDigit ++ ':' :: rest ↔ as = ds
  | [], [] => by simp
  | [], d :: ds => by
    have hne : ∀ a, ':' ≠ lowerDigit a := by decide
    simp [hne d]
  | a :: as, [] => by
    have hne : ∀ a, lowerDigit a ≠ ':' := by decide
    simp [hne a]
  | a :: as, d :: ds => by
    rw [List.map_cons, List.map_cons, List.cons_append, List.cons_append, List.cons_prefix_cons,
      prefix_group, lowerDigit_injective.eq_iff, List.cons.injEq]

theorem lower_group : toLowerCase g.text = g.numbers.map lowerDigit := by
  rw [toLowerCase, Group.text, Group.numbers, List.map_map, List.map_map]
  exact List.map_congr_left fun d _ => (digitText_spec d).2.2

theorem numbers_value (g : Group) :
    (0xfc00 ≤ g.value ∧ g.value ≤ 0xfdff ↔
      g.digits.length = 4 ∧ ([15, 12] <+: g.numbers ∨ [15, 13] <+: g.numbers)) ∧
    (g.value = 0xfe80 ↔ g.numbers = [15, 14, 8, 0]) ∧
    (g.digits.length < 4 → g.value ≤ 0xfff) ∧
    ([15, 12] <+: g.numbers ∨ [15, 13] <+: g.numbers → g.value ≠ 0) := by
  obtain ⟨ds, pos, short⟩ := g
  match ds, pos, short with
  | [a], _, _ | [a, b], _, _ | [a, b, c], _, _ | [a, b, c, d], _, _ =>
    simp only [Group.value, Group.numbers, List.foldl_cons, List.foldl_nil, List.map_cons,
      List.map_nil, List.cons_prefix_cons, List.nil_prefix, List.length_cons, List.length_nil,
      List.prefix_nil, List.cons.injEq, and_true, Fin.ext_iff]
    refine ⟨?_, ?_, ?_, ?_⟩ <;> grind

theorem head_text (h : l.head = g :: gs) : ∃ rest, l.text = g.text ++ ':' :: rest := by
  have hfull := l.full
  unfold V6.text
  cases htail : l.tail with
  | none =>
    rw [htail, h] at hfull
    have hne : gs.map Group.text ++ l.last ≠ [] := by
      intro hnil
      have hlen := congrArg List.length hnil
      simp only [V6.last, List.length_append, List.length_map, List.length_cons,
        List.length_nil] at hlen hfull
      omega
    refine ⟨[':'].intercalate (gs.map Group.text ++ l.last), ?_⟩
    dsimp only
    rw [h, List.map_cons, List.cons_append, List.intercalate_cons_of_ne_nil hne, List.append_assoc]
    rfl
  | some t =>
    dsimp only
    rw [h, List.map_cons]
    cases gs with
    | nil =>
      rw [List.map_nil, List.intercalate_singleton]
      exact ⟨_, rfl⟩
    | cons g' gs =>
      rw [List.map_cons, List.intercalate_cons_cons, List.append_assoc, List.append_assoc]
      exact ⟨_, rfl⟩

theorem gap_text (h : l.head = []) : ∃ t, l.tail = some t ∧
    l.text = ':' :: ':' :: [':'].intercalate (t.map Group.text ++ l.last) := by
  have hfull := l.full
  unfold V6.text
  cases htail : l.tail with
  | none =>
    rw [htail, h] at hfull
    have hquad := Option.length_toList_le (o := l.quad)
    simp only [List.length_nil] at hfull
    omega
  | some t =>
    rw [h]
    exact ⟨t, rfl, rfl⟩

theorem first_head (h : l.head = g :: gs) : l.first = g.value := by
  rw [V6.first, V6.value, h]
  rfl

theorem first_gap (h : l.head = []) : l.first = 0 := by
  obtain ⟨t, htail, -⟩ := gap_text h
  have hfull := l.full
  rw [htail, h] at hfull
  have hbehind : ((l.tail.getD []).map Group.value ++
      l.quad.toList.flatMap Quad.groups).length ≤ 7 := by
    cases hquad : l.quad <;> simp_all [Quad.groups]
  rw [V6.first, V6.value, h]
  obtain ⟨n, hn⟩ : ∃ n, 8 - (0 + ((l.tail.getD []).map Group.value ++
      l.quad.toList.flatMap Quad.groups).length) = n + 1 := ⟨_, (Nat.succ_pred (by omega)).symm⟩
  simp only [List.map_nil, List.nil_append, List.length_nil, hn, List.replicate_succ]
  rfl

end Groups

/-! ## The guard -/

theorem toLowerCase_idem (s : List Char) : toLowerCase (toLowerCase s) = toLowerCase s := by
  have hchar : ∀ c : Char, c.toLower.toLower = c.toLower := by
    intro c
    unfold Char.toLower
    grind
  rw [toLowerCase, toLowerCase, List.map_map]
  exact List.map_congr_left fun c _ => hchar c

section Guard

variable {isIP : List Char → ℕ} {l : V6}

theorem long_quad (q : Quad) : 2 ≤ q.text.length := by
  simp only [Quad.text, Quad.octets, List.map_cons, List.map_nil, List.intercalate_cons_cons,
    List.length_append, List.length_singleton]
  omega

theorem eq_singleton_of_intercalate {c : Char} : ∀ {es : List (List Char)}, (∀ p ∈ es, p ≠ []) →
    [':'].intercalate es = [c] → es = [[c]]
  | [], _, h => nomatch h
  | [p], _, h => by
    rw [List.intercalate_singleton] at h
    rw [h]
  | p :: p' :: es, hne, h => by
    have hp := List.length_pos_iff.mpr (hne p List.mem_cons_self)
    have hlen := congrArg List.length h
    rw [List.intercalate_cons_cons] at hlen
    simp only [List.length_append, List.length_singleton] at hlen
    omega

theorem loopback_of_text (h : toLowerCase l.text = "::1".toList) : l.value = V6.loopback := by
  have hcolon : ∀ a, lowerDigit a ≠ ':' := by decide
  cases hhead : l.head with
  | cons g gs =>
    obtain ⟨rest, htext⟩ := head_text hhead
    obtain ⟨d, ds, hd⟩ := List.exists_cons_of_ne_nil g.pos
    rw [htext, Group.text, hd, toLowerCase, List.map_cons, List.cons_append, List.map_cons,
      (digitText_spec d).2.2] at h
    exact absurd (List.cons.inj h).1 (hcolon _)
  | nil =>
    obtain ⟨t, htail, htext⟩ := gap_text hhead
    rw [htext, toLowerCase, List.map_cons, List.map_cons] at h
    have hone : toLowerCase ([':'].intercalate (t.map Group.text ++ l.last)) = ['1'] :=
      (List.cons.inj (List.cons.inj h).2).2
    obtain ⟨c, htext₁, hc⟩ := List.map_eq_singleton_iff.mp hone
    have hsplit := eq_singleton_of_intercalate (fun p hp => (parts_chars hp).2.2) htext₁
    match t, hsplit with
    | [], hsplit =>
      obtain ⟨q, -, hq⟩ := List.map_eq_singleton_iff.mp hsplit
      have hlen := long_quad q
      rw [hq] at hlen
      exact absurd hlen (by simp)
    | [g], hsplit =>
      have hlast : l.last = [] := (List.cons.inj hsplit).2
      have hquad : l.quad.toList = [] := List.map_eq_nil_iff.mp hlast
      obtain ⟨d, hd, rfl⟩ := List.map_eq_singleton_iff.mp (List.cons.inj hsplit).1
      have hdigit : ∀ a, lowerDigit a = '1' → a.val = 1 := by decide
      have hone := hdigit d.1 ((digitText_spec d).2.2.symm.trans hc)
      rw [V6.value, hhead, htail, hquad]
      simp only [Option.getD_some, List.map_cons, List.map_nil, Group.value, hd, List.foldl_cons,
        List.foldl_nil, hone]
      rfl
    | g :: g' :: t, hsplit => exact nomatch (List.cons.inj hsplit).2

theorem colon_v6 : ':' ∈ toLowerCase l.text := by
  cases hhead : l.head with
  | cons g gs =>
    obtain ⟨rest, htext⟩ := head_text hhead
    rw [htext, toLowerCase, List.map_append]
    exact List.mem_append_right _ List.mem_cons_self
  | nil =>
    obtain ⟨t, -, htext⟩ := gap_text hhead
    rw [htext]
    exact List.mem_cons_self

theorem private_v6 (hip : Recognises isIP) : isPrivateHost isIP l.text = true ↔
    toLowerCase l.text = "::1".toList ∨ ∃ g ∈ l.head.head?, [15, 12] <+: g.numbers ∨
      [15, 13] <+: g.numbers ∨ g.numbers = [15, 14, 8, 0] := by
  have hzero : toLowerCase l.text ≠ "0.0.0.0".toList := fun heq =>
    absurd (heq ▸ colon_v6) (by decide)
  have hchars : l.text ⊆ literalChars := literal_chars (.v6 l)
  rw [isPrivateHost_literal hip hchars, hip.v6]
  simp only [hzero, false_or, true_and, Nat.reduceEqDiff, false_and]
  refine or_congr_right ?_
  cases hhead : l.head with
  | cons g gs =>
    obtain ⟨rest, htext⟩ := head_text hhead
    have hlower : toLowerCase l.text =
        g.numbers.map lowerDigit ++ ':' :: toLowerCase rest := by
      rw [htext, toLowerCase, List.map_append, ← toLowerCase, lower_group]
      rfl
    have hfc := @prefix_digits (toLowerCase rest) [15, 12] g.numbers
    have hfd := @prefix_digits (toLowerCase rest) [15, 13] g.numbers
    have hfe := @prefix_group (toLowerCase rest) [15, 14, 8, 0] g.numbers
    rw [← hlower] at hfc hfd hfe
    simp only [List.head?_cons, Option.mem_some_iff, exists_eq_left', ← hfc, ← hfd,
      eq_comm (a := g.numbers), ← hfe]
    exact Iff.rfl
  | nil =>
    obtain ⟨t, -, htext⟩ := gap_text hhead
    rw [htext]
    refine iff_of_false ?_ fun ⟨g, hg, _⟩ => nomatch hg
    rintro (h | h | h)
    all_goals
      obtain ⟨rest, hrest⟩ := h
      exact absurd (List.cons.inj hrest).1 (by decide)

theorem agrees_v6 (hip : Recognises isIP) :
    (isPrivateHost isIP l.text = true ↔ l.Private) ↔ ¬ l.Missed ∧ ¬ l.Mistaken := by
  have hloop := @loopback_of_text l
  have hzero : l.value = V6.loopback → l.first = 0 := fun h => by
    rw [V6.first, h]
    rfl
  have hmapped : (∃ q : Quad, q.Private ∧ l.value = V6.mapped q) →
      l.first = 0 ∧ l.value ≠ V6.loopback := by
    rintro ⟨q, -, h⟩
    rw [V6.first, h]
    exact ⟨rfl, by simp [V6.mapped, V6.loopback]⟩
  rw [private_v6 hip]
  unfold V6.Private V6.Missed V6.Mistaken
  generalize (∃ q : Quad, q.Private ∧ l.value = V6.mapped q) = mapped at hmapped ⊢
  cases hhead : l.head with
  | nil =>
    have hfirst := first_gap hhead
    simp only [List.head?_nil, Option.not_mem_none, false_and, exists_false, hfirst]
    grind
  | cons g gs =>
    have hfirst := first_head hhead
    have hnumbers := numbers_value g
    have hshort := g.short
    have hbegins : (∃ d more, g.digits.map (·.1) = 15 :: d :: more ∧ (d = 12 ∨ d = 13)) ↔
        [15, 12] <+: g.numbers ∨ [15, 13] <+: g.numbers := by
      constructor
      · rintro ⟨d, more, heq, rfl | rfl⟩
        · exact Or.inl ⟨more, heq.symm⟩
        · exact Or.inr ⟨more, heq.symm⟩
      · rintro (⟨more, heq⟩ | ⟨more, heq⟩)
        · exact ⟨12, more, heq.symm, Or.inl rfl⟩
        · exact ⟨13, more, heq.symm, Or.inr rfl⟩
    simp only [List.head?_cons, Option.mem_some_iff, exists_eq_left', hbegins, hfirst]
    rw [hfirst] at hzero hmapped
    grind

theorem accepted {env : String → Option String} {newUrl : Option Url}
    {lookup : List Char → Except String (Option (List Char))} {u : Url}
    (hstrict : privateUrlsAllowed env = false)
    (h : ensureSafeUrl isIP env newUrl lookup = .ok u) :
    isPrivateHost isIP u.hostname = false ∧ (isIP u.hostname = 0 → ∀ a,
      lookup u.hostname = .ok (some a) → isPrivateHost isIP a = false) := by
  unfold ensureSafeUrl at h
  split at h
  · cases h
  · rename_i parsed _
    split at h
    · cases h
    · rw [if_neg (by rw [hstrict]; decide)] at h
      split at h
      · cases h
      · rename_i hhost
        rw [Bool.not_eq_true] at hhost
        split at h
        · rename_i hip
          cases h
          exact ⟨hhost, fun hzero => absurd hzero hip⟩
        · split at h
          · rename_i address hlookup
            split at h
            · cases h
            · rename_i haddress
              cases h
              refine ⟨hhost, fun _ a ha => ?_⟩
              cases hlookup.symm.trans ha
              exact Bool.eq_false_iff.mpr haddress
          · rename_i hlookup
            cases h
            exact ⟨hhost, fun _ a ha => nomatch hlookup.symm.trans ha⟩
          · rename_i hlookup
            split at h
            · cases h
            · cases h
              exact ⟨hhost, fun _ a ha => nomatch hlookup.symm.trans ha⟩

/-- **The guard is exact for every plain spelling and for no other one.** -/
theorem host_guarded_iff (isIP : List Char → ℕ) (hip : Recognises isIP) (l : Literal) :
    Guards isIP l ↔ l.Plain := by
  have hagrees : (isPrivateHost isIP l.text = true ↔ l.Private) ↔ l.Plain := by
    cases l with
    | v4 q => exact iff_of_true (private_quad hip) trivial
    | v6 l => exact agrees_v6 hip
  refine ⟨fun h => hagrees.mp h.agrees, fun hplain => ?_⟩
  have hexact := hagrees.mpr hplain
  refine ⟨hexact, fun env newUrl lookup u hstrict hok htext hprivate => ?_,
    fun env newUrl lookup u hstrict hok hzero hlookup hprivate => ?_⟩
  · have hhost := (accepted hstrict hok).1
    rcases htext with htext | htext
    · rw [htext, hexact.mpr hprivate] at hhost
      cases hhost
    · rw [htext, bracketed (literal_chars l), hexact.mpr hprivate] at hhost
      cases hhost
  · have hlooked := (accepted hstrict hok).2 hzero l.text hlookup
    rw [hexact.mpr hprivate] at hlooked
    cases hlooked

open Classical in
/-- A recogniser of literals. -/
noncomputable def literalVersion (s : List Char) : ℕ :=
  if ∃ q : Quad, toLowerCase q.text = toLowerCase s then 4
  else if ∃ l : V6, toLowerCase l.text = toLowerCase s then 6
  else 0

theorem recognises_literalVersion : Recognises literalVersion where
  v4 q := if_pos ⟨q, rfl⟩
  v6 l := by
    have hquad : ¬ ∃ q : Quad, toLowerCase q.text = toLowerCase l.text := by
      rintro ⟨q, hq⟩
      have hcolon : ':' ∈ q.text := by
        rw [← lower_quad, hq]
        exact colon_v6
      rcases octet_char hcolon with hdot | ⟨-, hne, -⟩
      · cases hdot
      · exact hne rfl
    rw [literalVersion, if_neg hquad, if_pos ⟨l, rfl⟩]
  anyCase s := by
    unfold literalVersion
    rw [toLowerCase_idem]

theorem guards_loopback : Guards literalVersion (.v4 ⟨127, 0, 0, 1⟩) :=
  (host_guarded_iff literalVersion recognises_literalVersion (.v4 ⟨127, 0, 0, 1⟩)).mpr trivial

/-- `::ffff:127.0.0.1`. -/
def mappedLoopback : V6 where
  head := []
  tail := some [⟨List.replicate 4 (15, false), by decide, by decide⟩]
  quad := some ⟨127, 0, 0, 1⟩
  full := by decide

theorem mapped_loopback_reached : ¬ ∀ isIP, Recognises isIP → ∀ l, Guards isIP l := by
  intro h
  have hguards := h literalVersion recognises_literalVersion (.v6 mappedLoopback)
  have hprivate : mappedLoopback.Private :=
    Or.inr (Or.inl ⟨⟨127, 0, 0, 1⟩, Or.inl rfl, by decide⟩)
  have htext := (private_v6 (l := mappedLoopback) recognises_literalVersion).mp
    (hguards.agrees.mpr hprivate)
  rcases htext with htext | ⟨g, hg, -⟩
  · exact absurd htext (by decide)
  · cases hg

end Guard

end OpenObs.Middleware
