import Mathlib.Data.List.Basic
import Mathlib.Data.List.Flatten

/-!
# PromQL

The part of the query language with selectors, rates, aggregations and arithmetic. A text is read in
two steps: its strings are told from the rest and their escapes are resolved, then the pieces are
those of an expression that has a type.
-/

namespace OpenObs.Foundation.PromQl

/-! ## Pieces of a text -/

inductive Piece : Type where
  | code (c : Char)
  | quoted (s : List Char)
deriving DecidableEq

inductive Place : Type where
  | outside
  | inside (s : List Char)
  | escape (s : List Char)

def unescape (c : Char) : Option Char :=
  ([('a', '\x07'), ('b', '\x08'), ('f', '\x0c'), ('n', '\n'), ('r', '\r'), ('t', '\t'),
    ('v', '\x0b'), ('\\', '\\'), ('"', '"')].find? (·.1 = c)).map (·.2)

def foreign : List Char := ['\\', '\'', '#', Char.ofNat 96]

def lexAt : Place → List Char → Option (List Piece)
  | .outside, [] => some []
  | _, [] => none
  | .outside, c :: rest =>
    if c = '"' then lexAt (.inside []) rest
    else if c ∈ foreign then none
    else (lexAt .outside rest).map (.code c :: ·)
  | .inside s, c :: rest =>
    if c = '"' then (lexAt .outside rest).map (.quoted s :: ·)
    else if c = '\n' then none
    else if c = '\\' then lexAt (.escape s) rest
    else lexAt (.inside (s ++ [c])) rest
  | .escape s, c :: rest =>
    match unescape c with
    | none => none
    | some d => lexAt (.inside (s ++ [d])) rest

def lex (text : List Char) : Option (List Piece) := lexAt .outside text

def Lexes (text : List Char) (ps : List Piece) : Prop :=
  ∀ rest, lexAt .outside (text ++ rest) = (lexAt .outside rest).map (ps ++ ·)

/-- Within a string, the text adds `s` to it. -/
def Adds (text s : List Char) : Prop :=
  ∀ acc rest, lexAt (.inside acc) (text ++ rest) = lexAt (.inside (acc ++ s)) rest

def codes (s : List Char) : List Piece := s.map .code

def Plain (s : List Char) : Prop := ∀ c ∈ s, c ≠ '"' ∧ c ∉ foreign

instance (s : List Char) : Decidable (Plain s) :=
  List.decidableBAll (fun c => c ≠ '"' ∧ c ∉ foreign) s

def Unescaped (s : List Char) : Prop := ∀ c ∈ s, c ∉ ['"', '\n', '\\']

instance (s : List Char) : Decidable (Unescaped s) :=
  List.decidableBAll (fun c => c ∉ ['"', '\n', '\\']) s

section Lex

variable {text text' s s' : List Char} {ps ps' : List Piece}

theorem Lexes.nil : Lexes [] [] := fun rest => by simp

theorem Lexes.append (h : Lexes text ps) (h' : Lexes text' ps') :
    Lexes (text ++ text') (ps ++ ps') := by
  intro rest
  rw [List.append_assoc, h, h', Option.map_map]
  simp [Function.comp_def]

theorem Lexes.lex_eq (h : Lexes text ps) : lex text = some ps := by
  have hend := h []
  simpa [lex, lexAt] using hend

theorem lexes_codes (h : Plain s) : Lexes s (codes s) := by
  induction s with
  | nil => exact Lexes.nil
  | cons c s ih =>
    obtain ⟨hquote, hforeign⟩ := h c List.mem_cons_self
    have hrest := ih fun d hd => h d (List.mem_cons_of_mem c hd)
    intro rest
    rw [List.cons_append, lexAt, if_neg hquote, if_neg hforeign, hrest, Option.map_map]
    simp [codes, Function.comp_def]

theorem Adds.nil : Adds [] [] := fun acc rest => by simp

theorem Adds.append (h : Adds text s) (h' : Adds text' s') : Adds (text ++ text') (s ++ s') := by
  intro acc rest
  rw [List.append_assoc, h, h', List.append_assoc]

theorem adds_char {c : Char} (h : c ∉ ['"', '\n', '\\']) : Adds [c] [c] := by
  simp only [List.mem_cons, List.not_mem_nil, or_false, not_or] at h
  intro acc rest
  rw [List.singleton_append, lexAt, if_neg h.1, if_neg h.2.1, if_neg h.2.2]

theorem adds_escape {c d : Char} (h : unescape c = some d) : Adds ['\\', c] [d] := by
  intro acc rest
  show lexAt (.inside acc) ('\\' :: c :: rest) = _
  rw [lexAt, if_neg (by decide), if_neg (by decide), if_pos rfl, lexAt, h]

theorem adds_flatMap {f : Char → List Char} : ∀ {s : List Char}, (∀ c ∈ s, Adds (f c) [c]) →
    Adds (s.flatMap f) s
  | [], _ => Adds.nil
  | c :: s, h => by
    have htail := adds_flatMap fun d hd => h d (List.mem_cons_of_mem c hd)
    exact (h c List.mem_cons_self).append htail

theorem adds_self (h : Unescaped s) : Adds s s := by
  have hmap := adds_flatMap fun c hc => adds_char (h c hc)
  rwa [List.flatMap_singleton'] at hmap

theorem Adds.lexes (h : Adds text s) : Lexes ('"' :: text ++ ['"']) [.quoted s] := by
  intro rest
  rw [List.append_assoc, List.cons_append, lexAt, if_pos rfl, h]
  show lexAt (.inside ([] ++ s)) ('"' :: rest) = _
  rw [lexAt, if_pos rfl, List.nil_append]
  rfl

theorem Lexes.intercalate {sep : List Char} {sepPs : List Piece} (hsep : Lexes sep sepPs) :
    ∀ {texts : List (List Char)} {pss : List (List Piece)}, List.Forall₂ Lexes texts pss →
      Lexes (sep.intercalate texts) (sepPs.intercalate pss)
  | _, _, .nil => Lexes.nil
  | _, _, .cons h .nil => by simpa [List.intercalate] using h
  | _, _, .cons h (.cons h' hrest) => by
    have htail := Lexes.intercalate hsep (.cons h' hrest)
    simp only [List.intercalate, List.intersperse, List.flatten_cons] at htail ⊢
    exact h.append (hsep.append htail)

end Lex

/-! ## Expressions -/

inductive Op : Type where
  | eq | re
deriving DecidableEq

structure Matcher where
  label : List Char
  op : Op
  value : List Char

inductive Expr : Type where
  | number (n : List Char)
  | selector (name : List Char) (ms : List Matcher)
  | range (name : List Char) (ms : List Matcher) (window : List Char)
  | call (fn : List Char) (e : Expr)
  | weighted (fn n : List Char) (e : Expr)
  | aggregate (op : List Char) (e : Expr)
  | aggregateBy (op : List Char) (e : Expr) (label : List Char)
  | binary (op : Char) (a b : Expr)
  | paren (e : Expr)

inductive Ty : Type where
  | scalar | vector | matrix
deriving DecidableEq

def Op.text : Op → List Char
  | .eq => ['=']
  | .re => ['=', '~']

def Matcher.pieces (m : Matcher) : List Piece :=
  codes m.label ++ (codes m.op.text ++ [.quoted m.value])

def selectorPieces (name : List Char) (ms : List Matcher) : List Piece :=
  codes name ++ (codes ['\x7b'] ++ ((codes [',']).intercalate (ms.map Matcher.pieces) ++
    codes ['\x7d']))

def Expr.pieces : Expr → List Piece
  | number n => codes n
  | selector name ms => selectorPieces name ms
  | range name ms window =>
    selectorPieces name ms ++ (codes ['['] ++ (codes window ++ codes [']']))
  | call fn e => codes fn ++ (codes ['('] ++ (e.pieces ++ codes [')']))
  | weighted fn n e =>
    codes fn ++ (codes ['('] ++ (codes n ++ (codes [',', ' '] ++ (e.pieces ++ codes [')']))))
  | aggregate op e => codes op ++ (codes ['('] ++ (e.pieces ++ codes [')']))
  | aggregateBy op e label =>
    codes op ++ (codes ['('] ++ (e.pieces ++ (codes [')', ' ', 'b', 'y', ' ', '('] ++
      (codes label ++ codes [')']))))
  | binary op a b => a.pieces ++ (codes [' ', op, ' '] ++ b.pieces)
  | paren e => codes ['('] ++ (e.pieces ++ codes [')'])

def letters : List Char := "abcdefghijklmnopqrstuvwxyzABCDEFGHIJKLMNOPQRSTUVWXYZ_".toList

def digits : List Char := "0123456789".toList

def isName : List Char → Bool
  | [] => false
  | c :: rest => letters.contains c && rest.all fun d => (letters ++ digits).contains d

def isNumber (n : List Char) : Bool :=
  match n with
  | [] => false
  | c :: rest => digits.contains c && rest.all fun d => ('.' :: digits).contains d

def isDuration (w : List Char) : Bool :=
  match w.reverse with
  | [] => false
  | unit :: number => "smhdwy".toList.contains unit && number.all digits.contains &&
      number.any (· ≠ '0')

section Types

-- what a regular expression matches, if it is one; it is anchored at both ends
variable (re2 : List Char → Option (List Char → Prop))

def Matcher.ok (m : Matcher) : Bool :=
  isName m.label && m.label ≠ "__name__".toList &&
    match m.op with
    | .eq => true
    | .re => (re2 m.value).isSome

def Matcher.Selects (m : Matcher) (v : List Char) : Prop :=
  match m.op with
  | .eq => v = m.value
  | .re => ∃ language, re2 m.value = some language ∧ language v

def aggregators : List (List Char) :=
  ["sum".toList, "avg".toList, "min".toList, "max".toList, "count".toList]

def Expr.isBinary : Expr → Bool
  | binary _ _ _ => true
  | _ => false

def Expr.type : Expr → Option Ty
  | number n => if isNumber n then some .scalar else none
  | selector name ms => if isName name ∧ ms.all (·.ok re2) then some .vector else none
  | range name ms window =>
    if isName name ∧ ms.all (·.ok re2) ∧ isDuration window then some .matrix else none
  | call fn e => if fn = "rate".toList ∧ e.type = some .matrix then some .vector else none
  | weighted fn n e =>
    if fn ∈ ["histogram_quantile".toList, "quantile".toList] ∧ isNumber n ∧
      e.type = some .vector then some .vector else none
  | aggregate op e => if op ∈ aggregators ∧ e.type = some .vector then some .vector else none
  | aggregateBy op e label =>
    if op ∈ aggregators ∧ e.type = some .vector ∧ isName label then some .vector else none
  | binary op a b =>
    if op ∈ ['+', '-', '*', '/'] ∧ a.isBinary = false ∧ b.isBinary = false ∧
      (a.type = some .vector ∨ b.type = some .vector) ∧
      (a.type = some .vector ∨ a.type = some .scalar) ∧
      (b.type = some .vector ∨ b.type = some .scalar) then some .vector else none
  | paren e => if e.type = some .vector then some .vector else none

section Typed

variable {re2} {e a b : Expr}

theorem type_rate {name window : List Char} {ms : List Matcher} (hname : isName name = true)
    (hms : ms.all (·.ok re2) = true) (hwindow : isDuration window = true) :
    (Expr.call "rate".toList (.range name ms window)).type re2 = some .vector := by
  have hrange : (Expr.range name ms window).type re2 = some .matrix :=
    if_pos ⟨hname, hms, hwindow⟩
  exact if_pos ⟨rfl, hrange⟩

theorem type_aggregate {op : List Char} (hop : op ∈ aggregators) (h : e.type re2 = some .vector) :
    (Expr.aggregate op e).type re2 = some .vector := if_pos ⟨hop, h⟩

theorem type_weighted {fn n : List Char}
    (hfn : fn ∈ ["histogram_quantile".toList, "quantile".toList]) (hn : isNumber n = true)
    (h : e.type re2 = some .vector) : (Expr.weighted fn n e).type re2 = some .vector :=
  if_pos ⟨hfn, hn, h⟩

theorem type_divide (ha : a.type re2 = some .vector) (hb : b.type re2 = some .vector)
    (hbare : a.isBinary = false ∧ b.isBinary = false) :
    (Expr.binary '/' a b).type re2 = some .vector :=
  if_pos ⟨by decide, hbare.1, hbare.2, Or.inl ha, Or.inl ha, Or.inl hb⟩

theorem type_paren (h : e.type re2 = some .vector) : (Expr.paren e).type re2 = some .vector :=
  if_pos h

end Typed

def Reads (text : List Char) (e : Expr) : Prop :=
  lex text = some e.pieces ∧ (e.type re2).isSome

end Types

def Expr.selectors : Expr → List (List Matcher)
  | number _ => []
  | selector _ ms => [ms]
  | range _ ms _ => [ms]
  | call _ e => e.selectors
  | weighted _ _ e => e.selectors
  | aggregate _ e => e.selectors
  | aggregateBy _ e _ => e.selectors
  | binary _ a b => a.selectors ++ b.selectors
  | paren e => e.selectors

def Matcher.blank (m : Matcher) : Matcher := { m with value := [] }

def Expr.blank : Expr → Expr
  | number n => number n
  | selector name ms => selector name (ms.map Matcher.blank)
  | range name ms window => range name (ms.map Matcher.blank) window
  | call fn e => call fn e.blank
  | weighted fn n e => weighted fn n e.blank
  | aggregate op e => aggregate op e.blank
  | aggregateBy op e label => aggregateBy op e.blank label
  | binary op a b => binary op a.blank b.blank
  | paren e => paren e.blank

end OpenObs.Foundation.PromQl
