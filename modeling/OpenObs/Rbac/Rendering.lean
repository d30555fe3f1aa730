import Mathlib.Data.List.TakeWhile
import OpenObs.Foundation.Scan
import OpenObs.Rbac.Evaluator

/-!
# The rendering of an evaluator

`string()` prints a tree for the message of a 403.
-/

namespace OpenObs.Rbac

open OpenObs.Foundation OpenObs.Foundation.Scan

namespace Evaluator

mutual

def string : Evaluator → String
| .action a scopes =>
    if scopes = [] then a else a ++ " on " ++ ", ".intercalate scopes
| .resolvedAction a resolvedScopes =>
    a ++ " on " ++ ", ".intercalate (resolvedScopes.map ("|".intercalate ·))
| .all children => "all(" ++ ", ".intercalate (stringList children) ++ ")"
| .any children => "any(" ++ ", ".intercalate (stringList children) ++ ")"

def stringList : List Evaluator → List String
| [] => []
| e :: es => string e :: stringList es

end

@[simp] theorem stringList_eq {children : List Evaluator} :
    stringList children = children.map string := by
  induction children with
  | nil => rfl
  | cons c cs ih => simp [stringList, ih]

mutual

def scopes : Evaluator → List String
| .action _ scopes => scopes
| .resolvedAction _ _ => []
| .all children => scopesList children
| .any children => scopesList children

def scopesList : List Evaluator → List String
| [] => []
| e :: es => scopes e ++ scopesList es

end

@[simp] theorem scopesList_eq {children : List Evaluator} :
    scopesList children = children.flatMap scopes := by
  induction children with
  | nil => rfl
  | cons c cs ih => simp [scopesList, ih]

end Evaluator

/-! ## Tokens -/

/-- `[a-z]`. -/
def isLetter (c : Char) : Bool := 'a'.toNat ≤ c.toNat ∧ c.toNat ≤ 'z'.toNat

/-- `[a-z0-9.]`. -/
def isKindChar (c : Char) : Bool :=
  isLetter c ∨ ('0'.toNat ≤ c.toNat ∧ c.toNat ≤ '9'.toNat) ∨ c = '.'

/-- `[\s,()|]`. -/
def isSeparator (c : Char) : Bool :=
  isSpace c ∨ c = ',' ∨ c = '(' ∨ c = ')' ∨ c = '|'

/-- The length of the match of `[a-z][a-z0-9.]*:[^\s,()|]+` at the head of a text. -/
def tokenLength : List Char → ℕ
  | [] => 0
  | c :: cs =>
    if isLetter c then
      match cs.dropWhile isKindChar with
      | ':' :: tail =>
        match (tail.takeWhile fun x => !isSeparator x).length with
        | 0 => 0
        | n + 1 => (cs.takeWhile isKindChar).length + 1 + 1 + (n + 1)
      | _ => 0
    else 0

def collectScopes (e : Evaluator) : List String :=
  ((matchAll tokenLength 0 e.string.toList).map String.ofList).eraseDups

def IsToken (w : List Char) : Prop :=
  ∃ c kind ident, w = c :: (kind ++ ':' :: ident) ∧ isLetter c = true ∧
    (∀ x ∈ kind, isKindChar x = true) ∧ ident ≠ [] ∧ ∀ x ∈ ident, isSeparator x = false

theorem not_isSeparator_of_isKindChar {c : Char} (h : isKindChar c = true) :
    isSeparator c = false := by
  by_contra hsep
  simp only [Bool.not_eq_false, isSeparator, isSpace, decide_eq_true_eq, List.mem_cons,
    List.not_mem_nil, or_false] at hsep
  have hne {d : Char} (hd : c = d) : isKindChar d = true := hd ▸ h
  rcases hsep with hs | hc | hc | hc | hc
  · simp only [isKindChar, isLetter, decide_eq_true_eq, Char.reduceToNat] at h
    rcases h with h | h | rfl
    · omega
    · omega
    · simp at hs
  all_goals exact absurd (hne hc) (by decide)

theorem not_isSeparator_of_isLetter {c : Char} (h : isLetter c = true) :
    isSeparator c = false :=
  not_isSeparator_of_isKindChar (by simp [isKindChar, h])

theorem tokenLength_of_isToken {w : List Char} (h : IsToken w) : tokenLength w = w.length := by
  obtain ⟨c, kind, ident, rfl, hc, hkind, hne, hident⟩ := h
  have hcolon : isKindChar ':' = false := by decide
  have htake : (kind ++ ':' :: ident).takeWhile isKindChar = kind := by
    rw [takeWhile_append_stop hcolon]
    exact List.takeWhile_eq_self_iff.mpr hkind
  have hdrop : (kind ++ ':' :: ident).dropWhile isKindChar = ':' :: ident := by
    rw [dropWhile_append_stop hcolon, List.dropWhile_eq_nil_iff.mpr hkind, List.nil_append]
  have hall : ident.takeWhile (fun x => !isSeparator x) = ident :=
    List.takeWhile_eq_self_iff.mpr fun x hx => by simp [hident x hx]
  cases ident with
  | nil => exact absurd rfl hne
  | cons d ds =>
    simp only [tokenLength, hc, if_true, htake, hdrop, hall, List.length_cons,
      List.length_append]
    omega

theorem tokenLength_split {v : List Char} (h : tokenLength v ≠ 0) :
    ∃ w rest, v = w ++ rest ∧ IsToken w ∧ tokenLength v = w.length := by
  cases v with
  | nil => exact absurd rfl h
  | cons c cs =>
    have hcs : cs.takeWhile isKindChar ++ cs.dropWhile isKindChar = cs :=
      List.takeWhile_append_dropWhile
    simp only [tokenLength] at h ⊢
    split at h
    · rename_i hc
      rw [if_pos hc]
      split at h
      · rename_i tail htail
        have htok : tail.takeWhile (fun x => !isSeparator x) ++
            tail.dropWhile (fun x => !isSeparator x) = tail :=
          List.takeWhile_append_dropWhile
        cases hn : (tail.takeWhile fun x => !isSeparator x).length with
        | zero =>
          rw [hn] at h
          exact absurd rfl h
        | succ n =>
          refine ⟨c :: (cs.takeWhile isKindChar ++ ':' ::
            tail.takeWhile fun x => !isSeparator x),
            tail.dropWhile fun x => !isSeparator x, ?_, ?_, ?_⟩
          · simp only [List.cons_append, List.append_assoc, htok]
            rw [← htail, hcs]
          · refine ⟨c, _, _, rfl, hc, fun x hx => List.mem_takeWhile_imp hx, ?_, ?_⟩
            · intro hnil
              rw [hnil] at hn
              exact absurd hn (by simp)
            · intro x hx
              simpa using List.mem_takeWhile_imp hx
          · simp only [List.length_cons, List.length_append, hn]
            omega
      · exact absurd rfl h
    · exact absurd rfl h

theorem tokenLength_isolates : Isolates tokenLength isSeparator where
  len_le u := by
    by_cases h : tokenLength u = 0
    · rw [h]
      exact Nat.zero_le _
    · obtain ⟨w, rest, rfl, -, hlen⟩ := tokenLength_split h
      rw [hlen, List.length_append]
      exact Nat.le_add_right _ _
  at_sep x v hx := by
    have hl : ¬ isLetter x = true := by
      intro hl
      rw [not_isSeparator_of_isLetter hl] at hx
      cases hx
    rw [tokenLength, if_neg hl]
  before_sep u x v hne hx := by
    have hkind : isKindChar x = false := by
      by_contra hk
      rw [not_isSeparator_of_isKindChar (by simpa using hk)] at hx
      cases hx
    have hcolon : x ≠ ':' := by
      rintro rfl
      exact absurd hx (by decide)
    cases u with
    | nil => exact absurd rfl hne
    | cons c cs =>
      rw [List.cons_append, tokenLength, tokenLength, dropWhile_append_stop hkind,
        takeWhile_append_stop hkind]
      cases hd : cs.dropWhile isKindChar with
      | nil => simp [hcolon]
      | cons d ds =>
        by_cases hdc : d = ':'
        · subst hdc
          simp only [List.cons_append]
          rw [takeWhile_append_stop (by simpa using hx)]
        · simp [hdc]

theorem isToken_iff {w : List Char} : IsToken w ↔ w ≠ [] ∧ tokenLength w = w.length := by
  constructor
  · intro h
    refine ⟨?_, tokenLength_of_isToken h⟩
    obtain ⟨c, kind, ident, rfl, -⟩ := h
    exact List.cons_ne_nil _ _
  · rintro ⟨hne, hlen⟩
    have hpos : tokenLength w ≠ 0 := by
      rw [hlen]
      exact fun h => hne (List.length_eq_zero_iff.mp h)
    obtain ⟨t, rest, rfl, ht, hl⟩ := tokenLength_split hpos
    rw [hl, List.length_append] at hlen
    obtain rfl : rest = [] := List.length_eq_zero_iff.mp (by omega)
    rw [List.append_nil]
    exact ht

instance {w : List Char} : Decidable (IsToken w) := decidable_of_iff _ isToken_iff.symm

/-! ## Which scopes are found -/

theorem matchAll_token {w : List Char} (h : IsToken w) : matchAll tokenLength 0 w = [w] := by
  obtain ⟨hne, hlen⟩ := isToken_iff.mp h
  exact matchAll_whole hlen hne

namespace Evaluator

theorem delimited_child {e : Evaluator} {children : List Evaluator} (he : e ∈ children)
    (opening : List Char) :
    Delimited isSeparator e.string.toList
      (opening ++ ['('] ++ (", ".intercalate (children.map string)).toList ++ [')']) := by
  have hjoin : Delimited isSeparator e.string.toList
      (", ".intercalate (children.map string)).toList := by
    rw [String.toList_intercalate]
    refine delimited_intercalate (x := ',') (y := ' ') (by decide) (by decide)
      ⟨[' '], rfl, [','], rfl⟩ ?_
    exact List.mem_map_of_mem (List.mem_map_of_mem he)
  exact hjoin.trans (Delimited.between (by decide) (by decide))

theorem delimited_scope {e : Evaluator} {s : String} (hs : s ∈ e.scopes) :
    Delimited isSeparator s.toList e.string.toList := by
  induction e using tree_induction with
  | action a scopes =>
    have hne : scopes ≠ [] := List.ne_nil_of_mem hs
    have hjoin : Delimited isSeparator s.toList (", ".intercalate scopes).toList := by
      rw [String.toList_intercalate]
      exact delimited_intercalate (x := ',') (y := ' ') (by decide) (by decide)
        ⟨[' '], rfl, [','], rfl⟩ (List.mem_map_of_mem hs)
    refine hjoin.trans ?_
    have hstring : (string (.action a scopes)).toList =
        (a.toList ++ [' ', 'o', 'n']) ++ [' '] ++ (", ".intercalate scopes).toList := by
      simp [string, hne]
    rw [hstring]
    exact Delimited.behind (by decide)
  | resolvedAction a resolvedScopes => exact absurd hs List.not_mem_nil
  | all children ih =>
    rw [scopes, scopesList_eq] at hs
    obtain ⟨c, hc, hs⟩ := List.mem_flatMap.mp hs
    refine (ih c hc hs).trans ?_
    have hstring : (string (.all children)).toList = ['a', 'l', 'l'] ++ ['('] ++
        (", ".intercalate (children.map string)).toList ++ [')'] := by
      simp [string]
    rw [hstring]
    exact delimited_child hc _
  | any children ih =>
    rw [scopes, scopesList_eq] at hs
    obtain ⟨c, hc, hs⟩ := List.mem_flatMap.mp hs
    refine (ih c hc hs).trans ?_
    have hstring : (string (.any children)).toList = ['a', 'n', 'y'] ++ ['('] ++
        (", ".intercalate (children.map string)).toList ++ [')'] := by
      simp [string]
    rw [hstring]
    exact delimited_child hc _

end Evaluator

/-- **Completeness of the scan.** A scope of a tree is collected exactly when it
is a token by itself, whatever stands around it. -/
theorem mem_collectScopes {e : Evaluator} {s : String} (hs : s ∈ e.scopes) :
    s ∈ collectScopes e ↔ IsToken s.toList := by
  rw [collectScopes, List.mem_eraseDups, List.mem_map]
  constructor
  · rintro ⟨w, hw, rfl⟩
    obtain ⟨u, v, -, hlen, rfl⟩ := mem_matchAll hw
    obtain ⟨w, rest, rfl, htok, hl⟩ := tokenLength_split hlen
    rw [hl, List.take_left, String.toList_ofList]
    exact htok
  · intro htok
    refine ⟨s.toList, ?_, String.ofList_toList⟩
    refine tokenLength_isolates.matchAll_delimited (Evaluator.delimited_scope hs) ?_
    rw [matchAll_token htok]
    exact List.mem_singleton_self _

/-! ## The target of the legacy fallback -/

def aclVerbs : List String := ["read", "write", "delete", "create"]

/-- `PermissionLevel.View` for reading, `PermissionLevel.Edit` for the rest. -/
def aclLevel (verb : String) : ℕ := if verb = "read" then 1 else 2

/-- `[^\s,)|]`. -/
def isUidChar (c : Char) : Bool := !(isSpace c || c = ',' || c = ')' || c = '|')

structure AclTarget where
  uid : String
  level : ℕ
deriving DecidableEq

/-- The match of
`dashboards:(read|write|delete|create)\s+on\s+dashboards:uid:([^\s,)|]+)`
at the head of a text. -/
def aclTargetAt (cs : List Char) : Option AclTarget := do
  let cs ← expect "dashboards:".toList cs
  let (verb, cs) ← aclVerbs.findSome? fun v => (expect v.toList cs).map fun cs => (v, cs)
  let cs ← expectSpaces cs
  let cs ← expect "on".toList cs
  let cs ← expectSpaces cs
  let cs ← expect "dashboards:uid:".toList cs
  let uid := cs.takeWhile isUidChar
  if uid.isEmpty then none else some ⟨String.ofList uid, aclLevel verb⟩

def extractDashboardAclTarget (e : Evaluator) : Option AclTarget :=
  exec aclTargetAt e.string.toList

end OpenObs.Rbac
