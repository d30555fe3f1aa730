import OpenObs.Foundation.Text
import OpenObs.Plans.Types

/-!
# Scopes

`rbac/scope.ts`: the grammar `kind[:attribute[:identifier]]` with `*` as a wildcard at any segment,
the coverage check, and the stricter grammar of approvals scopes.
-/

namespace OpenObs.Rbac

open OpenObs.Foundation OpenObs.Plans

/-! ## The general grammar -/

structure ParsedScope where
  kind : String
  attr : String
  identifier : String
deriving DecidableEq

def parseScope (scope : String) : ParsedScope :=
  if scope = "" then ⟨"*", "*", "*"⟩
  else
    let parts := Text.split scope ':'
    { kind := parts[0]?.getD "*"
      attr := parts[1]?.getD "*"
      identifier := if 3 ≤ parts.length then Text.join (parts.drop 2) ':' else "*" }

def matchesSegment (parentSeg childSeg : String) : Bool :=
  parentSeg = "*" ∨ parentSeg = childSeg

def scopeCovers (parent child : String) : Bool :=
  if parent = "" ∨ parent = "*" then true
  else if parent = child then true
  else
    let p := parseScope parent
    let c := parseScope child
    matchesSegment p.kind c.kind && matchesSegment p.attr c.attr &&
      matchesSegment p.identifier c.identifier

def ParsedScope.Matches (p c : ParsedScope) : Prop :=
  (p.kind = "*" ∨ p.kind = c.kind) ∧ (p.attr = "*" ∨ p.attr = c.attr) ∧
    (p.identifier = "*" ∨ p.identifier = c.identifier)

theorem scopeCovers_iff {parent child : String} :
    scopeCovers parent child = true ↔ (parseScope parent).Matches (parseScope child) := by
  unfold scopeCovers
  by_cases hw : parent = "" ∨ parent = "*"
  · rw [if_pos hw]
    have hp : parseScope parent = ⟨"*", "*", "*"⟩ := by
      rcases hw with rfl | rfl <;> decide
    simp [hp, ParsedScope.Matches]
  · rw [if_neg hw]
    by_cases heq : parent = child
    · simp [heq, ParsedScope.Matches]
    · simp [heq, ParsedScope.Matches, matchesSegment, and_assoc]

theorem ParsedScope.Matches.trans {p q r : ParsedScope} (hpq : p.Matches q)
    (hqr : q.Matches r) : p.Matches r := by
  -- one segment: a wildcard of `q` forces the same segment of `p` to be one
  have seg {a b c : String} (hab : a = "*" ∨ a = b) (hbc : b = "*" ∨ b = c) :
      a = "*" ∨ a = c := by
    rcases hab with h | rfl
    · exact Or.inl h
    · exact hbc
  exact ⟨seg hpq.1 hqr.1, seg hpq.2.1 hqr.2.1, seg hpq.2.2 hqr.2.2⟩

theorem scopeCovers_refl (scope : String) : scopeCovers scope scope = true := by
  rw [scopeCovers_iff]
  exact ⟨Or.inr rfl, Or.inr rfl, Or.inr rfl⟩

theorem scopeCovers_trans {a b c : String} (hab : scopeCovers a b = true)
    (hbc : scopeCovers b c = true) : scopeCovers a c = true := by
  rw [scopeCovers_iff] at hab hbc ⊢
  exact hab.trans hbc

theorem eq_of_parseScope {scope : String} {p : ParsedScope} (h : parseScope scope = p)
    (hid : p.identifier ≠ "*") :
    scope = p.kind ++ String.singleton ':' ++
      (p.attr ++ String.singleton ':' ++ p.identifier) := by
  subst h
  unfold parseScope at hid ⊢
  by_cases hs : scope = ""
  · rw [if_pos hs] at hid
    exact absurd rfl hid
  · rw [if_neg hs] at hid ⊢
    dsimp only at hid ⊢
    by_cases hlen : 3 ≤ (Text.split scope ':').length
    · rw [if_pos hlen]
      match hsplit : Text.split scope ':', hlen with
      | k :: a :: i :: rest, _ =>
        have hj := Text.join_split scope ':'
        rw [hsplit, Text.join_cons, Text.join_cons] at hj
        exact hj.symm
    · rw [if_neg hlen] at hid
      exact absurd rfl hid

/-! ## Approvals scopes -/

inductive ApprovalScope : Type where
  | wildcard
  | uid (id : String)
  | connector (connectorId : String)
  | «namespace» (connectorId ns : String)
  | team (teamId : String)
deriving DecidableEq

def oneIdentifier (parts : List String) (shape : String → ApprovalScope) :
    Option ApprovalScope :=
  match parts with
  | [_, _, id] => if id = "" then none else some (shape id)
  | _ => none

def parseApprovalScope (scope : String) : Option ApprovalScope :=
  if scope = "approvals:*" ∨ scope = "approvals:*:*" then some .wildcard
  else
    let parts := Text.split scope ':'
    if parts[0]? ≠ some "approvals" then none
    else if parts[1]? = some "uid" then oneIdentifier parts .uid
    else if parts[1]? = some "connector" then oneIdentifier parts .connector
    else if parts[1]? = some "namespace" then
      match parts with
      | [_, _, connectorId, ns] =>
        if connectorId = "" ∨ ns = "" then none else some (.namespace connectorId ns)
      | _ => none
    else if parts[1]? = some "team" then oneIdentifier parts .team
    else none

def isValidApprovalScope (scope : String) : Bool := (parseApprovalScope scope).isSome

/-- A column value that is neither `NULL` nor empty. -/
def present (v : Option String) : Option String := v.filter (· ≠ "")

/-- `approvals:<attr>:<ident>`. -/
def approvalScopeText (attr ident : String) : String :=
  "approvals" ++ String.singleton ':' ++ (attr ++ String.singleton ':' ++ ident)

def approvalRowScopes (row : ApprovalRequest) : List String :=
  [approvalScopeText "uid" row.id] ++
  (match present row.opsConnectorId with
    | some c => [approvalScopeText "connector" c] ++
        (match present row.targetNamespace with
          | some ns =>
            [approvalScopeText "namespace" (c ++ String.singleton ':' ++ ns)]
          | none => [])
    | none => []) ++
  (match present row.requesterTeamId with
    | some t => [approvalScopeText "team" t]
    | none => [])

/-! ## Reading a scope back from its parts -/

theorem split_approvalScopeText {attr ident : String} (h : ':' ∉ attr.toList) :
    Text.split (approvalScopeText attr ident) ':' =
      "approvals" :: attr :: Text.split ident ':' := by
  rw [approvalScopeText, Text.split_append, Text.split_append,
    Text.split_of_not_mem (by decide), Text.split_of_not_mem h]
  rfl

theorem parseScope_approvalScopeText {attr ident : String} (h : ':' ∉ attr.toList) :
    parseScope (approvalScopeText attr ident) = ⟨"approvals", attr, ident⟩ := by
  have hne : approvalScopeText attr ident ≠ "" := by
    intro hnil
    have hsplit : Text.split (approvalScopeText attr ident) ':' =
        "approvals" :: attr :: Text.split ident ':' := split_approvalScopeText h
    rw [hnil, Text.split_of_not_mem (by decide)] at hsplit
    exact absurd (List.cons.inj hsplit).1 (by decide)
  rw [parseScope, if_neg hne]
  simp [split_approvalScopeText h, Text.join_split, Text.split_ne_nil,
    Nat.one_le_iff_ne_zero]

theorem eq_approvalScopeText {scope attr ident : String}
    (hs : Text.split scope ':' = ["approvals", attr, ident]) :
    scope = approvalScopeText attr ident := by
  rw [← Text.join_split scope ':', hs, Text.join_cons, Text.join_cons,
    Text.join_singleton, approvalScopeText]

theorem eq_approvalScopeText_pair {scope attr c ns : String}
    (hs : Text.split scope ':' = ["approvals", attr, c, ns]) :
    scope = approvalScopeText attr (c ++ String.singleton ':' ++ ns) := by
  rw [← Text.join_split scope ':', hs, Text.join_cons, Text.join_cons, Text.join_cons,
    Text.join_singleton, approvalScopeText]

theorem oneIdentifier_eq_some {parts : List String} {shape : String → ApprovalScope}
    {g : ApprovalScope} :
    oneIdentifier parts shape = some g ↔
      ∃ k a id, parts = [k, a, id] ∧ id ≠ "" ∧ g = shape id := by
  constructor
  · intro h
    unfold oneIdentifier at h
    split at h
    · rename_i k a id
      by_cases hid : id = ""
      · rw [if_pos hid] at h
        cases h
      · rw [if_neg hid] at h
        cases h
        exact ⟨k, a, id, rfl, hid, rfl⟩
    · cases h
  · rintro ⟨k, a, id, rfl, hid, rfl⟩
    simp [oneIdentifier, hid]

def HasShape (scope : String) : ApprovalScope → Prop
  | .wildcard => scope = "approvals:*" ∨ scope = "approvals:*:*"
  | .uid id => id ≠ "" ∧ Text.split scope ':' = ["approvals", "uid", id]
  | .connector c => c ≠ "" ∧ Text.split scope ':' = ["approvals", "connector", c]
  | .«namespace» c ns => c ≠ "" ∧ ns ≠ "" ∧
      Text.split scope ':' = ["approvals", "namespace", c, ns]
  | .team t => t ≠ "" ∧ Text.split scope ':' = ["approvals", "team", t]

theorem not_wildcard_of_parts {scope attr : String} {rest : List String}
    (hs : Text.split scope ':' = "approvals" :: attr :: rest) (ha : attr ≠ "*") :
    ¬ (scope = "approvals:*" ∨ scope = "approvals:*:*") := by
  have h₁ : Text.split "approvals:*" ':' = ["approvals", "*"] := by decide
  have h₂ : Text.split "approvals:*:*" ':' = ["approvals", "*", "*"] := by decide
  rintro (rfl | rfl)
  · rw [h₁] at hs
    exact ha (List.cons.inj (List.cons.inj hs).2).1.symm
  · rw [h₂] at hs
    exact ha (List.cons.inj (List.cons.inj hs).2).1.symm

theorem oneIdentifier_of_parts {parts : List String} {shape : String → ApprovalScope}
    {attr : String} {g : ApprovalScope} (h₀ : parts[0]? = some "approvals")
    (h₁ : parts[1]? = some attr) (h : oneIdentifier parts shape = some g) :
    ∃ id, g = shape id ∧ id ≠ "" ∧ parts = ["approvals", attr, id] := by
  obtain ⟨k, a, id, rfl, hid, rfl⟩ := oneIdentifier_eq_some.mp h
  cases h₀
  cases h₁
  exact ⟨id, rfl, hid, rfl⟩

theorem hasShape_of_parse {scope : String} {g : ApprovalScope}
    (h : parseApprovalScope scope = some g) : HasShape scope g := by
  unfold parseApprovalScope at h
  split at h
  · rename_i hw
    cases h
    exact hw
  dsimp only at h
  split at h
  · cases h
  rename_i h₀
  have h₀ : (Text.split scope ':')[0]? = some "approvals" := by simpa using h₀
  split at h
  · rename_i h₁
    obtain ⟨id, rfl, hshape⟩ := oneIdentifier_of_parts h₀ h₁ h
    exact hshape
  split at h
  · rename_i h₁
    obtain ⟨id, rfl, hshape⟩ := oneIdentifier_of_parts h₀ h₁ h
    exact hshape
  split at h
  · rename_i h₁
    split at h
    · rename_i k a c ns hparts
      rw [hparts] at h₀ h₁
      cases h₀
      cases h₁
      split at h
      · cases h
      · rename_i hne
        cases h
        exact ⟨fun hc => hne (Or.inl hc), fun hn => hne (Or.inr hn), hparts⟩
    · cases h
  split at h
  · rename_i h₁
    obtain ⟨id, rfl, hshape⟩ := oneIdentifier_of_parts h₀ h₁ h
    exact hshape
  · cases h

theorem parse_of_hasShape {scope : String} {g : ApprovalScope} (h : HasShape scope g) :
    parseApprovalScope scope = some g := by
  cases g with
  | wildcard => exact if_pos h
  | uid id =>
    obtain ⟨hne, hparts⟩ := h
    rw [parseApprovalScope, if_neg (not_wildcard_of_parts hparts (by decide))]
    simp [hparts, oneIdentifier, hne]
  | connector c =>
    obtain ⟨hne, hparts⟩ := h
    rw [parseApprovalScope, if_neg (not_wildcard_of_parts hparts (by decide))]
    simp [hparts, oneIdentifier, hne]
  | «namespace» c ns =>
    obtain ⟨hc, hns, hparts⟩ := h
    rw [parseApprovalScope, if_neg (not_wildcard_of_parts hparts (by decide))]
    simp [hparts, hc, hns]
  | team t =>
    obtain ⟨hne, hparts⟩ := h
    rw [parseApprovalScope, if_neg (not_wildcard_of_parts hparts (by decide))]
    simp [hparts, oneIdentifier, hne]

/-- **The strict grammar.** What `parseApprovalScope` accepts. -/
theorem parseApprovalScope_eq_some {scope : String} {g : ApprovalScope} :
    parseApprovalScope scope = some g ↔ HasShape scope g :=
  ⟨hasShape_of_parse, parse_of_hasShape⟩

theorem hasShape_approvalScopeText {attr ident : String} {g : ApprovalScope}
    (ha : ':' ∉ attr.toList) (hstar : attr ≠ "*")
    (h : HasShape (approvalScopeText attr ident) g) :
    (attr = "uid" ∧ g = .uid ident) ∨ (attr = "connector" ∧ g = .connector ident) ∨
    (attr = "team" ∧ g = .team ident) ∨
    (attr = "namespace" ∧ ∃ c ns, Text.split ident ':' = [c, ns] ∧
      g = .«namespace» c ns) := by
  have hsplit : Text.split (approvalScopeText attr ident) ':' =
      "approvals" :: attr :: Text.split ident ':' := split_approvalScopeText ha
  cases g with
  | wildcard => exact absurd h (not_wildcard_of_parts hsplit hstar)
  | uid id =>
    have hp := hsplit.symm.trans h.2
    simp only [List.cons.injEq, true_and] at hp
    rw [Text.split_eq_singleton hp.2]
    exact Or.inl ⟨hp.1, rfl⟩
  | connector c =>
    have hp := hsplit.symm.trans h.2
    simp only [List.cons.injEq, true_and] at hp
    rw [Text.split_eq_singleton hp.2]
    exact Or.inr (Or.inl ⟨hp.1, rfl⟩)
  | «namespace» c ns =>
    have hp := hsplit.symm.trans h.2.2
    simp only [List.cons.injEq, true_and] at hp
    exact Or.inr (Or.inr (Or.inr ⟨hp.1, c, ns, hp.2, rfl⟩))
  | team t =>
    have hp := hsplit.symm.trans h.2
    simp only [List.cons.injEq, true_and] at hp
    rw [Text.split_eq_singleton hp.2]
    exact Or.inr (Or.inr (Or.inl ⟨hp.1, rfl⟩))

theorem mem_approvalRowScopes {row : ApprovalRequest} {scope : String} :
    scope ∈ approvalRowScopes row ↔
      scope = approvalScopeText "uid" row.id ∨
      (∃ c, present row.opsConnectorId = some c ∧
        (scope = approvalScopeText "connector" c ∨
          ∃ ns, present row.targetNamespace = some ns ∧
            scope = approvalScopeText "namespace" (c ++ String.singleton ':' ++ ns))) ∨
      ∃ t, present row.requesterTeamId = some t ∧ scope = approvalScopeText "team" t := by
  unfold approvalRowScopes
  cases present row.opsConnectorId with
  | none => cases present row.requesterTeamId <;> simp
  | some c =>
    cases present row.targetNamespace <;> cases present row.requesterTeamId <;>
      simp [or_assoc]

theorem present_eq_some {v : Option String} {w : String} :
    present v = some w ↔ v = some w ∧ w ≠ "" := by
  simp [present, Option.filter_eq_some_iff]

end OpenObs.Rbac
