import Mathlib.Data.List.Infix
import OpenObs.Rules.Repository

/-!
# Listing the alert rules

`GET /` of `routes/alert-rules.ts` over `findAll` of the rule repositories.
-/

namespace OpenObs.Rules

open OpenObs.Foundation OpenObs.Resources

/-- The options of `findAll`. -/
structure AlertRuleFindAllOptions where
  state : Option String := none
  severity : Option String := none
  search : Option String := none
  limit : Option ℤ := none
  offset : Option ℤ := none

structure RulePage where
  list : List AlertRule
  total : ℕ

/-! ## Selecting, ordering and searching -/

/-- A text option that is given: `if (filter.x)`. -/
def given : Option String → Option String
  | some s => if s = "" then none else some s
  | none => none

def selected (filter : AlertRuleFindAllOptions) (row : AlertRule) : Bool :=
  (given filter.state).all (row.state == ·) && (given filter.severity).all (row.severity == ·)

def orderedRows (filter : AlertRuleFindAllOptions) (t : Tables) : List AlertRule :=
  (t.alertRules.filter (selected filter)).mergeSort fun a b => decide (b.updatedAt ≤ a.updatedAt)

/-- `s.includes(q)`. -/
def includes (s q : String) : Bool := decide (q.toList <:+: s.toList)

/-- `Object.values(labels)`, of a column that defaults to `{}`. -/
def labelValues : Option Json → Except String (List Json)
  | none => .ok []
  | some .null => .error "Cannot convert undefined or null to object"
  | some (.obj fields) => .ok (fields.map Prod.snd)
  | some (.arr xs) => .ok xs
  | some (.str s) => .ok (s.toList.map fun c => .str (String.singleton c))
  | some (.num _) => .ok []
  | some (.bool _) => .ok []

/-- `values.some((v) => v.toLowerCase().includes(q))`. -/
def someValue (toLowerCase : String → String) (q : String) : List Json → Except String Bool
  | [] => .ok false
  | .str v :: rest =>
    if includes (toLowerCase v) q then .ok true else someValue toLowerCase q rest
  | _ :: _ => .error "v.toLowerCase is not a function"

def searchRow (toLowerCase : String → String) (filter : AlertRuleFindAllOptions)
    (row : AlertRule) : Except String Bool :=
  match given filter.search with
  | none => .ok true
  | some search =>
    let q := toLowerCase search
    if includes (toLowerCase row.name) q || includes (toLowerCase row.description) q then
      .ok true
    else do someValue toLowerCase q (← labelValues row.labels)

/-- `rows.filter(f)` for a callback that may throw. -/
def filterRows (f : AlertRule → Except String Bool) : List AlertRule → Except String (List AlertRule)
  | [] => .ok []
  | row :: rows => do
      let keep ← f row
      let kept ← filterRows f rows
      return if keep then row :: kept else kept

/-! ## Cutting the page -/

/-- `rows.slice(n)`. -/
def sliceFrom {α : Type} (n : ℤ) (rows : List α) : List α :=
  if n < 0 then rows.drop (rows.length - n.natAbs) else rows.drop n.toNat

/-- `rows.slice(0, n)`. -/
def sliceTo {α : Type} (n : ℤ) (rows : List α) : List α :=
  if n < 0 then rows.take (rows.length - n.natAbs) else rows.take n.toNat

/-- `if (filter.offset) …; if (filter.limit) …`: a zero is no bound. -/
def cut {α : Type} (filter : AlertRuleFindAllOptions) (rows : List α) : List α :=
  let rows := match filter.offset with
    | some n => if n ≠ 0 then sliceFrom n rows else rows
    | none => rows
  match filter.limit with
  | some n => if n ≠ 0 then sliceTo n rows else rows
  | none => rows

def AlertRuleRepository.findAll (toLowerCase : String → String) (filter : AlertRuleFindAllOptions)
    (t : Tables) : Except String RulePage := do
  let rows ← filterRows (searchRow toLowerCase filter) (orderedRows filter t)
  return { list := (cut filter rows).map rowToRule, total := rows.length }

/-- `GET /`, for a caller in `workspaceId`. -/
def listRules (toLowerCase : String → String) (workspaceId : String)
    (filter : AlertRuleFindAllOptions) (t : Tables) : Except String RulePage := do
  let results ← AlertRuleRepository.findAll toLowerCase filter t
  let list := results.list.filter (·.workspaceId = some workspaceId)
  return { list, total := list.length }

/-! ## What a caller may expect -/

def matchingRows (toLowerCase : String → String) (filter : AlertRuleFindAllOptions)
    (t : Tables) : List AlertRule :=
  (orderedRows filter t).filter fun row =>
    match searchRow toLowerCase filter row with
    | .ok keep => keep
    | .error _ => false

def own (workspaceId : String) (rows : List AlertRule) : List AlertRule :=
  rows.filter (·.workspaceId = some workspaceId)

/-- The places `[offset, offset + limit)` of a list. -/
def window {α : Type} (filter : AlertRuleFindAllOptions) (rows : List α) : List α :=
  let offset := filter.offset.getD 0
  match filter.limit with
  | none => rows.drop offset.toNat
  | some limit => (rows.take (offset + limit).toNat).drop offset.toNat

def PagesOwn (toLowerCase : String → String) (workspaceId : String)
    (filter : AlertRuleFindAllOptions) (t : Tables) : Prop :=
  let rows := own workspaceId (matchingRows toLowerCase filter t)
  listRules toLowerCase workspaceId filter t =
    .ok { list := (window filter rows).map rowToRule, total := rows.length }

/-! ## When it is -/

/-- Where the page of `n` rows starts. -/
def firstPlace (filter : AlertRuleFindAllOptions) (n : ℕ) : ℕ :=
  match filter.offset with
  | none => 0
  | some offset => if offset < 0 then n - offset.natAbs else offset.toNat

/-- The place behind the page of `n` rows. -/
def placeBehind (filter : AlertRuleFindAllOptions) (n : ℕ) : ℕ :=
  match filter.limit with
  | none => n
  | some limit =>
    if limit = 0 then n
    else if limit < 0 then n - limit.natAbs
    else firstPlace filter n + limit.toNat

def Searchable (toLowerCase : String → String) (filter : AlertRuleFindAllOptions)
    (t : Tables) : Prop :=
  ∀ row ∈ orderedRows filter t, ∃ keep, searchRow toLowerCase filter row = .ok keep

def NoneCut (workspaceId : String) (filter : AlertRuleFindAllOptions)
    (rows : List AlertRule) : Prop :=
  (∀ row ∈ rows.take (firstPlace filter rows.length), row.workspaceId ≠ some workspaceId) ∧
  ∀ row ∈ rows.drop (placeBehind filter rows.length), row.workspaceId ≠ some workspaceId

/-- All of `n` places are in `[offset, offset + limit)`. -/
def FitsWindow (filter : AlertRuleFindAllOptions) (n : ℕ) : Prop :=
  n = 0 ∨ (filter.offset.getD 0 ≤ 0 ∧
    ∀ limit, filter.limit = some limit → (n : ℤ) ≤ filter.offset.getD 0 + limit)

section Pages

variable {toLowerCase : String → String} {workspaceId : String}
  {filter : AlertRuleFindAllOptions} {t : Tables} {rows : List AlertRule}

theorem filterRows_ok {f : AlertRule → Except String Bool}
    (h : ∀ row ∈ rows, ∃ keep, f row = .ok keep) :
    filterRows f rows = .ok (rows.filter fun row =>
      match f row with
      | .ok keep => keep
      | .error _ => false) := by
  induction rows with
  | nil => rfl
  | cons row rows ih =>
    obtain ⟨keep, hkeep⟩ := h row List.mem_cons_self
    have hrest := ih fun r hr => h r (List.mem_cons_of_mem _ hr)
    rw [filterRows, hkeep, hrest, List.filter_cons, hkeep]
    cases keep <;> rfl

theorem filterRows_error {f : AlertRule → Except String Bool}
    (h : ¬ ∀ row ∈ rows, ∃ keep, f row = .ok keep) : ∃ e, filterRows f rows = .error e := by
  induction rows with
  | nil => exact absurd (fun row hrow => absurd hrow List.not_mem_nil) h
  | cons row rows ih =>
    rw [filterRows]
    cases hrow : f row with
    | error e => exact ⟨e, rfl⟩
    | ok keep =>
      obtain ⟨e, he⟩ := ih fun hrest => h fun r hr => by
        rcases List.mem_cons.mp hr with rfl | hr
        · exact ⟨keep, hrow⟩
        · exact hrest r hr
      rw [he]
      exact ⟨e, rfl⟩

theorem cut_eq : cut filter rows =
    (rows.take (placeBehind filter rows.length)).drop (firstPlace filter rows.length) := by
  have hfront : (match filter.offset with
      | some n => if n ≠ 0 then sliceFrom n rows else rows
      | none => rows) = rows.drop (firstPlace filter rows.length) := by
    unfold firstPlace
    cases filter.offset with
    | none => rfl
    | some n =>
      by_cases hzero : n = 0
      · simp [hzero]
      · by_cases hneg : n < 0 <;> simp [sliceFrom, hzero, hneg]
  unfold cut
  rw [hfront, List.drop_take]
  unfold placeBehind
  have hwhole : (rows.drop (firstPlace filter rows.length)).take
      (rows.length - firstPlace filter rows.length) = rows.drop (firstPlace filter rows.length) :=
    List.take_of_length_le (by simp)
  cases filter.limit with
  | none => exact hwhole.symm
  | some n =>
    by_cases hzero : n = 0
    · simp [hzero, hwhole]
    by_cases hneg : n < 0
    · simp only [sliceTo, hzero, hneg, ne_eq, not_false_eq_true, if_true, if_false,
        List.length_drop]
      congr 1
      omega
    · simp only [sliceTo, hzero, hneg, ne_eq, not_false_eq_true, if_true, if_false]
      congr 1
      omega

theorem cut_sublist : (cut filter rows).Sublist rows := by
  rw [cut_eq]
  exact (List.drop_sublist _ _).trans (List.take_sublist _ _)

theorem filter_between_iff {α : Type} {p : α → Bool} {xs : List α} {lo hi : ℕ} :
    ((xs.take hi).drop lo).filter p = xs.filter p ↔
      (∀ x ∈ xs.take lo, p x = false) ∧ ∀ x ∈ xs.drop hi, p x = false := by
  have hsplit : xs.filter p = ((xs.take hi).take lo).filter p ++
      ((xs.take hi).drop lo).filter p ++ (xs.drop hi).filter p := by
    rw [← List.filter_append, ← List.filter_append, List.take_append_drop, List.take_append_drop]
  -- a place before the first that is not before the last is behind the last
  have hfront : ∀ x, x ∈ xs.take lo ↔
      x ∈ (xs.take hi).take lo ∨ x ∈ (xs.drop hi).take (lo - (xs.take hi).length) := by
    intro x
    rw [← List.mem_append, ← List.take_append, List.take_append_drop]
  constructor
  · intro h
    have hlength := congrArg List.length (h.trans hsplit)
    simp only [List.length_append] at hlength
    have hbefore : ((xs.take hi).take lo).filter p = [] := by
      apply List.eq_nil_of_length_eq_zero
      omega
    have hbehind : (xs.drop hi).filter p = [] := by
      apply List.eq_nil_of_length_eq_zero
      omega
    rw [List.filter_eq_nil_iff] at hbefore hbehind
    refine ⟨fun x hx => ?_, fun x hx => by simpa using hbehind x hx⟩
    rcases (hfront x).mp hx with hx | hx
    · simpa using hbefore x hx
    · simpa using hbehind x (List.mem_of_mem_take hx)
  · rintro ⟨hbefore, hbehind⟩
    have hnone : ((xs.take hi).take lo).filter p = [] := List.filter_eq_nil_iff.mpr fun x hx => by
      simpa using hbefore x ((hfront x).mpr (Or.inl hx))
    have hnone' : (xs.drop hi).filter p = [] := List.filter_eq_nil_iff.mpr fun x hx => by
      simpa using hbehind x hx
    rw [hsplit, hnone, hnone', List.nil_append, List.append_nil]

theorem own_cut_iff : own workspaceId (cut filter rows) = own workspaceId rows ↔
    NoneCut workspaceId filter rows := by
  rw [cut_eq, own, own, filter_between_iff]
  simp only [NoneCut, decide_eq_false_iff_not, ne_eq]

theorem window_sublist {α : Type} {xs : List α} : (window filter xs).Sublist xs := by
  unfold window
  cases filter.limit with
  | none => exact List.drop_sublist _ _
  | some limit => exact (List.drop_sublist _ _).trans (List.take_sublist _ _)

theorem window_eq_self_iff {α : Type} {xs : List α} :
    window filter xs = xs ↔ FitsWindow filter xs.length := by
  have hlength : window filter xs = xs ↔ (window filter xs).length = xs.length :=
    ⟨congrArg List.length, window_sublist.eq_of_length⟩
  rw [hlength]
  unfold window FitsWindow
  cases filter.limit with
  | none =>
    simp only [List.length_drop, reduceCtorEq, false_implies, implies_true, and_true]
    omega
  | some limit =>
    simp only [List.length_drop, List.length_take, Option.some.injEq, forall_eq']
    omega

theorem own_rowToRule :
    (rows.map rowToRule).filter (·.workspaceId = some workspaceId) =
      (own workspaceId rows).map rowToRule := by
  rw [List.filter_map]
  rfl

theorem listRules_ok (h : Searchable toLowerCase filter t) :
    listRules toLowerCase workspaceId filter t =
      .ok { list := (own workspaceId (cut filter (matchingRows toLowerCase filter t))).map rowToRule
            total := (own workspaceId (cut filter (matchingRows toLowerCase filter t))).length } := by
  rw [listRules, AlertRuleRepository.findAll, filterRows_ok h]
  simp only [bind, Except.bind, pure, Except.pure, own_rowToRule, List.length_map]
  rfl

theorem listRules_error (h : ¬ Searchable toLowerCase filter t) :
    ∃ e, listRules toLowerCase workspaceId filter t = .error e := by
  obtain ⟨e, he⟩ := filterRows_error h
  rw [listRules, AlertRuleRepository.findAll, he]
  exact ⟨e, rfl⟩

end Pages

/-- **When a page is right**: the search reads every selected rule, and the page that is cut from
the matching rules of all orgs, like the one that should be cut from the caller's own, leaves
none of the caller's out. -/
theorem pages_own_iff (toLowerCase : String → String) (workspaceId : String)
    (filter : AlertRuleFindAllOptions) (t : Tables) :
    PagesOwn toLowerCase workspaceId filter t ↔
      Searchable toLowerCase filter t ∧
      NoneCut workspaceId filter (matchingRows toLowerCase filter t) ∧
      FitsWindow filter (own workspaceId (matchingRows toLowerCase filter t)).length := by
  by_cases hsearch : Searchable toLowerCase filter t
  · rw [PagesOwn, listRules_ok hsearch, Except.ok.injEq, RulePage.mk.injEq, ← own_cut_iff,
      ← window_eq_self_iff]
    constructor
    · rintro ⟨hlist, htotal⟩
      -- a page with as many rules as there are is all of them
      have hpage := (cut_sublist.filter _).eq_of_length htotal
      have hlength := congrArg List.length hlist
      rw [List.length_map, List.length_map, htotal] at hlength
      exact ⟨hsearch, hpage, window_sublist.eq_of_length hlength.symm⟩
    · rintro ⟨-, hpage, hwindow⟩
      rw [hpage, hwindow]
      exact ⟨rfl, rfl⟩
  · obtain ⟨e, he⟩ : ∃ e, listRules toLowerCase workspaceId filter t = .error e :=
      listRules_error hsearch
    rw [PagesOwn, he]
    simp [hsearch]

def oneRuleEach : Tables :=
  { alertRules := [
      { id := "alert_b", name := "B", description := "", condition := .null,
        workspaceId := some "org_b", updatedAt := "2026-01-02" },
      { id := "alert_a", name := "A", description := "", condition := .null,
        workspaceId := some "org_a", updatedAt := "2026-01-01" }] }

/-- With a limit of one the page holds the other org's rule, and the caller sees none. -/
theorem first_page_empty :
    ¬ ∀ (toLowerCase : String → String) (workspaceId : String)
      (filter : AlertRuleFindAllOptions) (t : Tables),
      PagesOwn toLowerCase workspaceId filter t := by
  intro h
  have hpage := h id "org_a" { limit := some 1 } oneRuleEach
  have hordered : orderedRows { limit := some 1 } oneRuleEach = oneRuleEach.alertRules :=
    List.mergeSort_of_pairwise (by decide +kernel)
  have htotal := congrArg (fun r => r.toOption.map RulePage.total) hpage
  rw [listRules, AlertRuleRepository.findAll, matchingRows, hordered] at htotal
  exact absurd htotal (by decide +kernel)

end OpenObs.Rules
