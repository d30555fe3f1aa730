import OpenObs.Agent.PermissionModes

/-!
# Credentials in a proposal

What `connector_propose` shows of its arguments in its event, and what it hands to the service
(`handlers/config.ts`).
-/

namespace OpenObs.Agent

open OpenObs.Foundation OpenObs.Rules

/-! ## The event -/

section Event

variable (toLowerCase : String → String)

def isCredentialKey (key : String) : Bool := decide (toLowerCase key ∈ CREDENTIAL_KEYS)

def redacted : Json := .str "[REDACTED]"

mutual
def redactValue : Json → Json
  | .obj fields => .obj (redactParamsForAudit fields)
  | v => v
/-- A field `__proto__` sets the prototype of the copy: the copy has no such field. -/
def redactParamsForAudit : Json.Record → Json.Record
  | [] => []
  | (key, value) :: rest =>
    if key = "__proto__" then redactParamsForAudit rest
    else (key, if isCredentialKey toLowerCase key then redacted else redactValue value) ::
      redactParamsForAudit rest
end

/-- An event `tool_call`. -/
structure ToolCallEvent where
  tool : String
  args : Json.Record
  displayText : String

/-- `...(isDefault ? { isDefault } : {})`. -/
def defaultParam : Option Json → Json.Record
  | some (.bool true) => [("isDefault", .bool true)]
  | _ => []

/-- `...(scope ? { scope } : {})`. -/
def scopeParam (scope : Option Json.Record) : Json.Record :=
  (scope.map fun r => ("scope", Json.obj r)).toList

def configParam (config : Option Json.Record) : Json := (config.map Json.obj).getD .null

def proposeParams (args : Json.Record) : Json.Record :=
  [("template", .str ((optionalString (Json.field args "template")).getD "")),
    ("name", .str ((optionalString (Json.field args "name")).getD "")),
    ("config", configParam (asRecord (Json.field args "config")))] ++
  scopeParam (asRecord (Json.field args "scope")) ++
  defaultParam (Json.field args "isDefault")

/-- The first event of `handleConnectorPropose`. -/
def connectorProposeEvent (args : Json.Record) : ToolCallEvent where
  tool := "connector_propose"
  args := redactParamsForAudit toLowerCase (proposeParams args)
  displayText := "Proposing connector \"" ++
    ((optionalString (Json.field args "name")).orElse fun _ =>
      optionalString (Json.field args "template")).getD "" ++ "\""

end Event

/-! ## The proposal -/

section Proposal

variable {κ δ : Type} (ctx : ToolContext κ δ)

/-- What reaches `proposeConnector`. -/
def proposedConnector (args : Json.Record) : Option ConnectorProposal :=
  match rejectRawCredentials ctx args with
  | some _ => none
  | none => ctx.configService.bind fun _ => (connectorProposal ctx args).toOption

end Proposal

/-! ## Records that differ in credentials only -/

section Alike

variable (toLowerCase : String → String)

def isSet : Json → Bool
  | .null => false
  | .str s => s ≠ ""
  | _ => true

mutual
inductive Alike : Json → Json → Prop
  | null : Alike .null .null
  | bool (b : Bool) : Alike (.bool b) (.bool b)
  | num (n : ℤ) : Alike (.num n) (.num n)
  | str (s : String) : Alike (.str s) (.str s)
  | arr {xs ys : List Json} (h : AlikeAll xs ys) : Alike (.arr xs) (.arr ys)
  | obj {r r' : Json.Record} (h : AlikeFields r r') : Alike (.obj r) (.obj r')
inductive AlikeAll : List Json → List Json → Prop
  | nil : AlikeAll [] []
  | cons {x y : Json} {xs ys : List Json} (h : Alike x y) (hs : AlikeAll xs ys) :
      AlikeAll (x :: xs) (y :: ys)
inductive AlikeFields : Json.Record → Json.Record → Prop
  | nil : AlikeFields [] []
  | same (key : String) {x y : Json} {r r' : Json.Record} (h : Alike x y)
      (hs : AlikeFields r r') : AlikeFields ((key, x) :: r) ((key, y) :: r')
  | credential {key : String} {x y : Json} {r r' : Json.Record}
      (hkey : isCredentialKey toLowerCase key = true) (hx : isSet x = true) (hy : isSet y = true)
      (hs : AlikeFields r r') : AlikeFields ((key, x) :: r) ((key, y) :: r')
end

mutual
def holds : Json → Bool
  | .arr xs => holdsIn xs
  | .obj r => holdsField r
  | _ => false
def holdsIn : List Json → Bool
  | [] => false
  | x :: xs => holds x || holdsIn xs
def holdsField : Json.Record → Bool
  | [] => false
  | (key, value) :: rest =>
    (isCredentialKey toLowerCase key && isSet value) || holds value || holdsField rest
end

mutual
def exposes : Json → Bool
  | .arr xs => holdsIn toLowerCase xs
  | .obj r => exposesField r
  | _ => false
def exposesField : Json.Record → Bool
  | [] => false
  | (key, value) :: rest =>
    (key ≠ "__proto__" && !isCredentialKey toLowerCase key && exposes value) ||
      exposesField rest
end

mutual
/-- No field that the copy loses, and no credential that is not set, where the redaction
goes. -/
def copies : Json → Bool
  | .obj r => copiesFields r
  | _ => true
def copiesFields : Json.Record → Bool
  | [] => true
  | (key, value) :: rest =>
    (key ≠ "__proto__" && if isCredentialKey toLowerCase key then isSet value else copies value)
      && copiesFields rest
end

end Alike

/-! ## Redaction and refusal -/

def AsciiLower (toLowerCase : String → String) : Prop :=
  ∀ s : String, (∀ c ∈ s.toList, c.toNat < 128) → toLowerCase s = s.toLower

def EventHides (toLowerCase : String → String) (args : Json.Record) : Prop :=
  ∀ args', AlikeFields toLowerCase args args' →
    connectorProposeEvent toLowerCase args = connectorProposeEvent toLowerCase args'

def CopiesRest (toLowerCase : String → String) (args : Json.Record) : Prop :=
  AlikeFields toLowerCase (proposeParams args) (connectorProposeEvent toLowerCase args).args

/-- A credential in `config` or `scope`, whatever these are. -/
def credentialPresent (toLowerCase : String → String) (args : Json.Record) : Bool :=
  (Json.field args "config").any (holds toLowerCase) ||
    (Json.field args "scope").any (holds toLowerCase)

def Withholds {κ δ : Type} (ctx : ToolContext κ δ) (args : Json.Record) : Prop :=
  (∀ args', AlikeFields ctx.platform.toLowerCase args args' →
    proposedConnector ctx args = proposedConnector ctx args') ∧
  (credentialPresent ctx.platform.toLowerCase args = true → proposedConnector ctx args = none)

def hasCredential (toLowerCase : String → String) (r : Json.Record) : Bool :=
  r.any fun f => isCredentialKey toLowerCase f.1 && isSet f.2

/-- Where `rejectRawCredentials` looks. -/
def refused (toLowerCase : String → String) (args : Json.Record) : Bool :=
  hasCredential toLowerCase args ||
    (asRecord (Json.field args "config")).any (hasCredential toLowerCase)

def Lacks {κ δ : Type} (ctx : ToolContext κ δ) (args : Json.Record) : Prop :=
  ctx.configService = none ∨ optionalString (Json.field args "template") = none ∨
    optionalString (Json.field args "name") = none ∨ asRecord (Json.field args "config") = none

/-! ## Records that are alike -/

section Laws

variable {toLowerCase : String → String}

mutual
theorem Alike.refl : ∀ j : Json, Alike toLowerCase j j
  | .null => .null
  | .bool b => .bool b
  | .num n => .num n
  | .str s => .str s
  | .arr xs => .arr (AlikeAll.refl xs)
  | .obj r => .obj (AlikeFields.refl r)
theorem AlikeAll.refl : ∀ xs : List Json, AlikeAll toLowerCase xs xs
  | [] => .nil
  | x :: xs => .cons (Alike.refl x) (AlikeAll.refl xs)
theorem AlikeFields.refl : ∀ r : Json.Record, AlikeFields toLowerCase r r
  | [] => .nil
  | (key, value) :: rest => .same key (Alike.refl value) (AlikeFields.refl rest)
end

theorem Alike.isSet_eq {x y : Json} (h : Alike toLowerCase x y) : isSet x = isSet y := by
  cases h <;> rfl

/-! ### Without a credential alike values are equal -/

mutual
theorem Alike.holds_eq : ∀ {x y : Json}, Alike toLowerCase x y →
    holds toLowerCase x = holds toLowerCase y ∧ (holds toLowerCase x = false → x = y)
  | _, _, .null => ⟨rfl, fun _ => rfl⟩
  | _, _, .bool _ => ⟨rfl, fun _ => rfl⟩
  | _, _, .num _ => ⟨rfl, fun _ => rfl⟩
  | _, _, .str _ => ⟨rfl, fun _ => rfl⟩
  | _, _, .arr h => ⟨h.holdsIn_eq.1, fun hno => congrArg Json.arr (h.holdsIn_eq.2 hno)⟩
  | _, _, .obj h => ⟨h.holdsField_eq.1, fun hno => congrArg Json.obj (h.holdsField_eq.2 hno)⟩
theorem AlikeAll.holdsIn_eq : ∀ {xs ys : List Json}, AlikeAll toLowerCase xs ys →
    holdsIn toLowerCase xs = holdsIn toLowerCase ys ∧
      (holdsIn toLowerCase xs = false → xs = ys)
  | _, _, .nil => ⟨rfl, fun _ => rfl⟩
  | _, _, .cons h hs => by
    refine ⟨by rw [holdsIn, holdsIn, h.holds_eq.1, hs.holdsIn_eq.1], fun hno => ?_⟩
    rw [holdsIn, Bool.or_eq_false_iff] at hno
    rw [h.holds_eq.2 hno.1, hs.holdsIn_eq.2 hno.2]
theorem AlikeFields.holdsField_eq : ∀ {r r' : Json.Record}, AlikeFields toLowerCase r r' →
    holdsField toLowerCase r = holdsField toLowerCase r' ∧
      (holdsField toLowerCase r = false → r = r')
  | _, _, .nil => ⟨rfl, fun _ => rfl⟩
  | _, _, .same key h hs => by
    refine ⟨by rw [holdsField, holdsField, h.holds_eq.1, hs.holdsField_eq.1, h.isSet_eq],
      fun hno => ?_⟩
    rw [holdsField, Bool.or_eq_false_iff, Bool.or_eq_false_iff] at hno
    rw [h.holds_eq.2 hno.1.2, hs.holdsField_eq.2 hno.2]
  | _, _, .credential hkey hx hy hs => by
    refine ⟨by simp [holdsField, hkey, hx, hy], fun hno => ?_⟩
    simp [holdsField, hkey, hx] at hno
end

theorem exists_set_ne (x : Json) : ∃ y : Json, isSet y = true ∧ x ≠ y := by
  by_cases h : x = .bool true
  · exact ⟨.bool false, rfl, by simp [h]⟩
  · exact ⟨.bool true, rfl, h⟩

mutual
theorem exists_alike_ne : ∀ {x : Json}, holds toLowerCase x = true →
    ∃ y, Alike toLowerCase x y ∧ x ≠ y
  | .arr xs, h => by
    obtain ⟨ys, hys, hne⟩ := exists_alikeAll_ne h
    exact ⟨.arr ys, .arr hys, fun heq => hne (Json.arr.inj heq)⟩
  | .obj r, h => by
    obtain ⟨r', hr', hne⟩ := exists_alikeFields_ne h
    exact ⟨.obj r', .obj hr', fun heq => hne (Json.obj.inj heq)⟩
theorem exists_alikeAll_ne : ∀ {xs : List Json}, holdsIn toLowerCase xs = true →
    ∃ ys, AlikeAll toLowerCase xs ys ∧ xs ≠ ys
  | x :: xs, h => by
    rw [holdsIn, Bool.or_eq_true] at h
    rcases h with h | h
    · obtain ⟨y, hy, hne⟩ := exists_alike_ne h
      exact ⟨y :: xs, .cons hy (AlikeAll.refl xs), fun heq => hne (List.cons.inj heq).1⟩
    · obtain ⟨ys, hys, hne⟩ := exists_alikeAll_ne h
      exact ⟨x :: ys, .cons (Alike.refl x) hys, fun heq => hne (List.cons.inj heq).2⟩
theorem exists_alikeFields_ne : ∀ {r : Json.Record}, holdsField toLowerCase r = true →
    ∃ r', AlikeFields toLowerCase r r' ∧ r ≠ r'
  | (key, value) :: rest, h => by
    rw [holdsField, Bool.or_eq_true, Bool.or_eq_true, Bool.and_eq_true] at h
    rcases h with (h | h) | h
    · obtain ⟨y, hy, hne⟩ := exists_set_ne value
      exact ⟨(key, y) :: rest, .credential h.1 h.2 hy (AlikeFields.refl rest),
        fun heq => hne (Prod.mk.inj (List.cons.inj heq).1).2⟩
    · obtain ⟨y, hy, hne⟩ := exists_alike_ne h
      exact ⟨(key, y) :: rest, .same key hy (AlikeFields.refl rest),
        fun heq => hne (Prod.mk.inj (List.cons.inj heq).1).2⟩
    · obtain ⟨r', hr', hne⟩ := exists_alikeFields_ne h
      exact ⟨(key, value) :: r', .same key (Alike.refl value) hr',
        fun heq => hne (List.cons.inj heq).2⟩
end

/-! ### What the redaction shows -/

mutual
theorem Alike.redactValue_eq : ∀ {x y : Json}, Alike toLowerCase x y →
    exposes toLowerCase x = false → redactValue toLowerCase x = redactValue toLowerCase y
  | _, _, .null, _ => rfl
  | _, _, .bool _, _ => rfl
  | _, _, .num _, _ => rfl
  | _, _, .str _, _ => rfl
  | _, _, .arr h, hno => congrArg Json.arr (h.holdsIn_eq.2 hno)
  | _, _, .obj h, hno => congrArg Json.obj (h.redactParams_eq hno)
theorem AlikeFields.redactParams_eq : ∀ {r r' : Json.Record}, AlikeFields toLowerCase r r' →
    exposesField toLowerCase r = false →
    redactParamsForAudit toLowerCase r = redactParamsForAudit toLowerCase r'
  | _, _, .nil, _ => rfl
  | _, _, .same key h hs, hno => by
    rw [exposesField, Bool.or_eq_false_iff] at hno
    rw [redactParamsForAudit, redactParamsForAudit, hs.redactParams_eq hno.2]
    by_cases hproto : key = "__proto__"
    · rw [if_pos hproto, if_pos hproto]
    · cases hkey : isCredentialKey toLowerCase key with
      | true => rfl
      | false =>
        have hvalue := hno.1
        simp only [hkey, ne_eq, hproto, not_false_eq_true, decide_true, Bool.not_false,
          Bool.true_and] at hvalue
        rw [h.redactValue_eq hvalue]
  | _, _, .credential hkey _ _ hs, hno => by
    rw [exposesField, Bool.or_eq_false_iff] at hno
    rw [redactParamsForAudit, redactParamsForAudit, hs.redactParams_eq hno.2, hkey]
    rfl
end

mutual
theorem exists_shown_ne : ∀ {x : Json}, exposes toLowerCase x = true →
    ∃ y, Alike toLowerCase x y ∧ redactValue toLowerCase x ≠ redactValue toLowerCase y
  | .arr xs, h => by
    obtain ⟨ys, hys, hne⟩ := exists_alikeAll_ne h
    exact ⟨.arr ys, .arr hys, fun heq => hne (Json.arr.inj heq)⟩
  | .obj r, h => by
    obtain ⟨r', hr', hne⟩ := exists_params_ne h
    exact ⟨.obj r', .obj hr', fun heq => hne (Json.obj.inj heq)⟩
theorem exists_params_ne : ∀ {r : Json.Record}, exposesField toLowerCase r = true →
    ∃ r', AlikeFields toLowerCase r r' ∧
      redactParamsForAudit toLowerCase r ≠ redactParamsForAudit toLowerCase r'
  | (key, value) :: rest, h => by
    rw [exposesField, Bool.or_eq_true, Bool.and_eq_true, Bool.and_eq_true] at h
    rcases h with ⟨⟨hproto, hkey⟩, h⟩ | h
    · obtain ⟨y, hy, hne⟩ := exists_shown_ne h
      refine ⟨(key, y) :: rest, .same key hy (AlikeFields.refl rest), fun heq => hne ?_⟩
      rw [redactParamsForAudit, redactParamsForAudit, if_neg (of_decide_eq_true hproto),
        if_neg (of_decide_eq_true hproto), if_neg (by simpa using hkey),
        if_neg (by simpa using hkey)] at heq
      exact (Prod.mk.inj (List.cons.inj heq).1).2
    · obtain ⟨r', hr', hne⟩ := exists_params_ne h
      refine ⟨(key, value) :: r', .same key (Alike.refl value) hr', fun heq => hne ?_⟩
      rw [redactParamsForAudit, redactParamsForAudit] at heq
      split at heq
      · exact heq
      · exact (List.cons.inj heq).2
end

theorem length_redactParams : ∀ r : Json.Record,
    (redactParamsForAudit toLowerCase r).length ≤ r.length
  | [] => Nat.le_refl _
  | (key, value) :: rest => by
    rw [redactParamsForAudit]
    split
    · exact Nat.le_succ_of_le (length_redactParams rest)
    · exact Nat.succ_le_succ (length_redactParams rest)

theorem AlikeFields.length_eq : ∀ {r r' : Json.Record}, AlikeFields toLowerCase r r' →
    r.length = r'.length
  | _, _, .nil => rfl
  | _, _, .same _ _ hs => congrArg (· + 1) hs.length_eq
  | _, _, .credential _ _ _ hs => congrArg (· + 1) hs.length_eq

mutual
theorem alike_redactValue_iff : ∀ x : Json,
    Alike toLowerCase x (redactValue toLowerCase x) ↔ copies toLowerCase x = true
  | .null => iff_of_true .null rfl
  | .bool b => iff_of_true (.bool b) rfl
  | .num n => iff_of_true (.num n) rfl
  | .str s => iff_of_true (.str s) rfl
  | .arr xs => iff_of_true (.arr (AlikeAll.refl xs)) rfl
  | .obj r => by
    rw [copies, ← alike_redactParams_iff r]
    constructor
    · rintro (_ | _ | _ | _ | _ | h)
      exact h
    · exact fun h => .obj h
theorem alike_redactParams_iff : ∀ r : Json.Record,
    AlikeFields toLowerCase r (redactParamsForAudit toLowerCase r) ↔
      copiesFields toLowerCase r = true
  | [] => iff_of_true .nil rfl
  | (key, value) :: rest => by
    have hrest := alike_redactParams_iff rest
    have hvalue := alike_redactValue_iff value
    rw [redactParamsForAudit, copiesFields]
    by_cases hproto : key = "__proto__"
    · -- the copy is too short
      rw [if_pos hproto]
      refine iff_of_false (fun h => ?_) (by simp [hproto])
      have hlength := h.length_eq
      have hle : (redactParamsForAudit toLowerCase rest).length ≤ rest.length :=
        length_redactParams rest
      rw [List.length_cons] at hlength
      omega
    · rw [if_neg hproto, Bool.and_eq_true, Bool.and_eq_true, ← hrest]
      simp only [ne_eq, hproto, not_false_eq_true, decide_true, true_and]
      cases hkey : isCredentialKey toLowerCase key with
      | true =>
        simp only [if_true]
        constructor
        · rintro (_ | ⟨_, h, hs⟩ | ⟨_, hx, _, hs⟩)
          · exact ⟨h.isSet_eq.trans rfl, hs⟩
          · exact ⟨hx, hs⟩
        · exact fun h => .credential hkey h.1 rfl h.2
      | false =>
        simp only [Bool.false_eq_true, if_false, ← hvalue]
        constructor
        · rintro (_ | ⟨_, h, hs⟩ | ⟨hcredential, _, _, hs⟩)
          · exact ⟨h, hs⟩
          · rw [hkey] at hcredential
            cases hcredential
        · exact fun h => .same key h.1 h.2
end

end Laws

/-! ## Fields of alike records -/

section Fields

variable {toLowerCase : String → String} {r r' : Json.Record} {key : String} {x y : Json}

theorem field_cons (key name : String) (x : Json) (r : Json.Record) :
    Json.field ((key, x) :: r) name = if key = name then some x else Json.field r name := by
  by_cases h : key = name <;> simp [Json.field, h]

theorem AlikeFields.field (hkey : isCredentialKey toLowerCase key = false) :
    ∀ {r r' : Json.Record}, AlikeFields toLowerCase r r' →
      Option.Rel (Alike toLowerCase) (Json.field r key) (Json.field r' key)
  | _, _, .nil => .none
  | _, _, .same other h hs => by
    rw [field_cons, field_cons]
    split
    · exact .some h
    · exact hs.field hkey
  | (other, _) :: _, _, .credential hother _ _ hs => by
    have hne : other ≠ key := by
      rintro rfl
      rw [hkey] at hother
      cases hother
    rw [field_cons, field_cons, if_neg hne, if_neg hne]
    exact hs.field hkey

theorem AlikeFields.change (hxy : Alike toLowerCase x y) : ∀ {r : Json.Record},
    Json.field r key = some x → ∃ r', AlikeFields toLowerCase r r' ∧
      Json.field r' key = some y ∧ ∀ other, other ≠ key → Json.field r' other = Json.field r other
  | (name, value) :: rest, h => by
    rw [field_cons] at h
    by_cases hname : name = key
    · rw [if_pos hname] at h
      obtain rfl := Option.some.inj h
      refine ⟨(name, y) :: rest, .same name hxy (AlikeFields.refl rest), ?_, ?_⟩
      · rw [field_cons, if_pos hname]
      · intro other hother
        have hne : name ≠ other := fun heq => hother (heq.symm.trans hname)
        rw [field_cons, field_cons, if_neg hne, if_neg hne]
    · rw [if_neg hname] at h
      obtain ⟨r', hr', hkey, hrest⟩ := AlikeFields.change hxy h
      refine ⟨(name, value) :: r', .same name (Alike.refl value) hr', ?_, ?_⟩
      · rw [field_cons, if_neg hname, hkey]
      · intro other hother
        rw [field_cons, field_cons, hrest other hother]

theorem AlikeFields.hasCredential_eq : ∀ {r r' : Json.Record}, AlikeFields toLowerCase r r' →
    hasCredential toLowerCase r = hasCredential toLowerCase r'
  | _, _, .nil => rfl
  | _, _, .same key h hs => by
    have hrest := hs.hasCredential_eq
    rw [hasCredential, hasCredential] at hrest ⊢
    rw [List.any_cons, List.any_cons, hrest, h.isSet_eq]
  | _, _, .credential hkey hx hy hs => by
    simp [hasCredential, hkey, hx, hy]

theorem optionalString_alike {v w : Option Json} (h : Option.Rel (Alike toLowerCase) v w) :
    optionalString v = optionalString w := by
  cases h with
  | none => rfl
  | some h => cases h <;> rfl

theorem asRecord_alike {v w : Option Json} (h : Option.Rel (Alike toLowerCase) v w) :
    Option.Rel (AlikeFields toLowerCase) (asRecord v) (asRecord w) := by
  cases h with
  | none => exact .none
  | some h =>
    cases h with
    | obj h => exact .some h
    | _ => exact .none

end Fields

/-! ## The arguments of a proposal -/

section Arguments

variable {toLowerCase : String → String} {args args' : Json.Record}

theorem AsciiLower.not_credential (h : AsciiLower toLowerCase) {key : String}
    (hkey : key ∈ ["template", "name", "config", "scope", "isDefault"]) :
    isCredentialKey toLowerCase key = false := by
  have hplain : (["template", "name", "config", "scope", "isDefault"].all fun key =>
      key.toList.all (fun c => decide (c.toNat < 128)) && !decide (key.toLower ∈ CREDENTIAL_KEYS)) =
        true := by decide +kernel
  have hchecked := List.all_eq_true.mp hplain key hkey
  rw [Bool.and_eq_true, List.all_eq_true, Bool.not_eq_true'] at hchecked
  rw [isCredentialKey, h key fun c hc => of_decide_eq_true (hchecked.1 c hc)]
  exact hchecked.2

theorem AlikeFields.read (h : AsciiLower toLowerCase) (hargs : AlikeFields toLowerCase args args')
    {key : String} (hkey : key ∈ ["template", "name", "config", "scope", "isDefault"]) :
    Option.Rel (Alike toLowerCase) (Json.field args key) (Json.field args' key) :=
  hargs.field (h.not_credential hkey)

theorem AlikeFields.append : ∀ {r r' s s' : Json.Record}, AlikeFields toLowerCase r r' →
    AlikeFields toLowerCase s s' → AlikeFields toLowerCase (r ++ s) (r' ++ s')
  | _, _, _, _, .nil, hs => hs
  | _, _, _, _, .same key h hr, hs => .same key h (hr.append hs)
  | _, _, _, _, .credential hkey hx hy hr, hs => .credential hkey hx hy (hr.append hs)

theorem alike_configParam {a b : Option Json.Record}
    (h : Option.Rel (AlikeFields toLowerCase) a b) :
    Alike toLowerCase (configParam a) (configParam b) := by
  cases h with
  | none => exact .null
  | some h => exact .obj h

theorem alike_scopeParam {a b : Option Json.Record}
    (h : Option.Rel (AlikeFields toLowerCase) a b) :
    AlikeFields toLowerCase (scopeParam a) (scopeParam b) := by
  cases h with
  | none => exact .nil
  | some h => exact .same _ (.obj h) .nil

theorem alike_defaultParam {a b : Option Json} (h : Option.Rel (Alike toLowerCase) a b) :
    AlikeFields toLowerCase (defaultParam a) (defaultParam b) := by
  cases h with
  | none => exact .nil
  | some h =>
    cases h with
    | bool b => exact AlikeFields.refl _
    | _ => exact .nil

theorem AlikeFields.proposeParams (h : AsciiLower toLowerCase)
    (hargs : AlikeFields toLowerCase args args') :
    AlikeFields toLowerCase (proposeParams args) (proposeParams args') := by
  have htemplate : optionalString (Json.field args "template") = _ :=
    optionalString_alike (hargs.read h (by decide))
  have hname : optionalString (Json.field args "name") = _ :=
    optionalString_alike (hargs.read h (by decide))
  rw [OpenObs.Agent.proposeParams, OpenObs.Agent.proposeParams, htemplate, hname]
  exact .append (.append (.same _ (.str _) (.same _ (.str _) (.same _
    (alike_configParam (asRecord_alike (hargs.read h (by decide)))) .nil)))
    (alike_scopeParam (asRecord_alike (hargs.read h (by decide)))))
    (alike_defaultParam (hargs.read h (by decide)))

theorem redactParams_cons (h : AsciiLower toLowerCase) {key : String}
    (hkey : key ∈ ["template", "name", "config", "scope", "isDefault"]) (x : Json)
    (r : Json.Record) : redactParamsForAudit toLowerCase ((key, x) :: r) =
      (key, redactValue toLowerCase x) :: redactParamsForAudit toLowerCase r := by
  have hproto : key ≠ "__proto__" := by
    rintro rfl
    exact absurd hkey (by decide)
  rw [redactParamsForAudit, if_neg hproto, if_neg (by simp [h.not_credential hkey])]

theorem shown_of_event (h : AsciiLower toLowerCase)
    (hevent : (connectorProposeEvent toLowerCase args).args =
      (connectorProposeEvent toLowerCase args').args) :
    redactValue toLowerCase (configParam (asRecord (Json.field args "config"))) =
      redactValue toLowerCase (configParam (asRecord (Json.field args' "config"))) ∧
    redactParamsForAudit toLowerCase (scopeParam (asRecord (Json.field args "scope")) ++
        defaultParam (Json.field args "isDefault")) =
      redactParamsForAudit toLowerCase (scopeParam (asRecord (Json.field args' "scope")) ++
        defaultParam (Json.field args' "isDefault")) := by
  simp only [connectorProposeEvent, OpenObs.Agent.proposeParams, List.cons_append,
    List.nil_append, redactParams_cons h (show "template" ∈ _ by decide),
    redactParams_cons h (show "name" ∈ _ by decide),
    redactParams_cons h (show "config" ∈ _ by decide), List.cons.injEq, Prod.mk.injEq,
    true_and] at hevent
  exact hevent.2.2

theorem asRecord_eq_some {v : Option Json} {r : Json.Record} (h : asRecord v = some r) :
    v = some (.obj r) := by
  unfold asRecord at h
  split at h
  · rw [Option.some.inj h]
  · cases h

theorem exposesField_append : ∀ r s : Json.Record, exposesField toLowerCase (r ++ s) =
    (exposesField toLowerCase r || exposesField toLowerCase s)
  | [], s => rfl
  | (key, value) :: rest, s => by
    rw [List.cons_append, exposesField, exposesField, exposesField_append rest s, Bool.or_assoc]

theorem exposes_defaultParam (v : Option Json) :
    exposesField toLowerCase (defaultParam v) = false := by
  unfold defaultParam
  split
  · simp [exposesField, exposes]
  · rfl

theorem exposes_proposeParams (hexposes : exposesField toLowerCase (proposeParams args) = true) :
    (∃ r, Json.field args "config" = some (.obj r) ∧ exposesField toLowerCase r = true) ∨
      ∃ r, Json.field args "scope" = some (.obj r) ∧ exposesField toLowerCase r = true := by
  rw [OpenObs.Agent.proposeParams, exposesField_append, exposesField_append,
    exposes_defaultParam, Bool.or_false, Bool.or_eq_true] at hexposes
  rcases hexposes with hconfig | hscope
  · left
    cases hc : asRecord (Json.field args "config") with
    | none => simp [hc, configParam, exposesField, exposes] at hconfig
    | some r =>
      refine ⟨r, asRecord_eq_some hc, ?_⟩
      simp [hc, configParam, exposesField, exposes] at hconfig
      exact hconfig.2
  · right
    cases hc : asRecord (Json.field args "scope") with
    | none => simp [hc, scopeParam, exposesField] at hscope
    | some r =>
      refine ⟨r, asRecord_eq_some hc, ?_⟩
      simp [hc, scopeParam, exposesField, exposes] at hscope
      exact hscope.2

theorem eventHides_iff (h : AsciiLower toLowerCase) : EventHides toLowerCase args ↔
    exposesField toLowerCase (proposeParams args) = false := by
  constructor
  · intro hhides
    by_contra hexposes
    rw [Bool.not_eq_false] at hexposes
    rcases exposes_proposeParams hexposes with ⟨r, hr, hshown⟩ | ⟨r, hr, hshown⟩
    · obtain ⟨r', hr', hne⟩ := exists_params_ne hshown
      obtain ⟨args', hargs, hfield, -⟩ := AlikeFields.change (.obj hr') hr
      have heq := (shown_of_event h (congrArg ToolCallEvent.args (hhides args' hargs))).1
      rw [hr, hfield] at heq
      exact hne (Json.obj.inj heq)
    · obtain ⟨r', hr', hne⟩ := exists_params_ne hshown
      obtain ⟨args', hargs, hfield, -⟩ := AlikeFields.change (.obj hr') hr
      have heq := (shown_of_event h (congrArg ToolCallEvent.args (hhides args' hargs))).2
      rw [hr, hfield] at heq
      simp only [asRecord, scopeParam, Option.map_some, Option.toList_some, List.cons_append,
        redactParams_cons h (show "scope" ∈ _ by decide)] at heq
      exact hne (Json.obj.inj (Prod.mk.inj (List.cons.inj heq).1).2)
  · intro hno args' hargs
    have hshown := (hargs.proposeParams h).redactParams_eq hno
    have htemplate : optionalString (Json.field args "template") = _ :=
      optionalString_alike (hargs.read h (by decide))
    have hname : optionalString (Json.field args "name") = _ :=
      optionalString_alike (hargs.read h (by decide))
    rw [connectorProposeEvent, connectorProposeEvent, hshown, htemplate, hname]

end Arguments

/-! ## What reaches the service -/

section Reaching

variable {κ δ : Type} {ctx : ToolContext κ δ} {args args' : Json.Record}

theorem credentialIn_isSome (r : Json.Record) :
    (credentialIn ctx r).isSome = hasCredential ctx.platform.toLowerCase r := by
  rw [credentialIn, Option.isSome_map, hasCredential, List.isSome_find?]
  refine List.any_congr rfl fun f => ?_
  rw [isCredentialKey]
  congr 1

theorem rejectRawCredentials_isSome :
    (rejectRawCredentials ctx args).isSome = refused ctx.platform.toLowerCase args := by
  rw [rejectRawCredentials, refused, ← credentialIn_isSome]
  cases credentialIn ctx args with
  | some key => rfl
  | none =>
    cases hconfig : Json.field args "config" with
    | none => rfl
    | some value =>
      cases value with
      | obj config => simp [asRecord, credentialIn_isSome]
      | _ => rfl

theorem proposedConnector_eq : proposedConnector ctx args =
    if refused ctx.platform.toLowerCase args then none
    else ctx.configService.bind fun _ => (connectorProposal ctx args).toOption := by
  rw [proposedConnector, ← rejectRawCredentials_isSome]
  cases rejectRawCredentials ctx args <;> rfl

theorem proposedConnector_none_iff : proposedConnector ctx args = none ↔
    refused ctx.platform.toLowerCase args = true ∨ Lacks ctx args := by
  rw [proposedConnector_eq, Lacks, connectorProposal]
  cases refused ctx.platform.toLowerCase args with
  | true => simp
  | false =>
    cases ctx.configService <;> cases optionalString (Json.field args "template") <;>
      cases optionalString (Json.field args "name") <;>
      cases asRecord (Json.field args "config") <;> simp [Except.toOption]

theorem rel_none_iff {α β : Type} {R : α → β → Prop} {a : Option α} {b : Option β}
    (h : Option.Rel R a b) : a = none ↔ b = none := by
  cases h with
  | none => exact iff_of_true rfl rfl
  | some _ => exact iff_of_false (Option.some_ne_none _) (Option.some_ne_none _)

theorem any_hasCredential {toLowerCase : String → String} {a b : Option Json.Record}
    (h : Option.Rel (AlikeFields toLowerCase) a b) :
    a.any (hasCredential toLowerCase) = b.any (hasCredential toLowerCase) := by
  cases h with
  | none => rfl
  | some h => exact h.hasCredential_eq

theorem eq_of_not_holds {toLowerCase : String → String} {a b : Option Json}
    (h : Option.Rel (Alike toLowerCase) a b) (hno : a.any (holds toLowerCase) = false) :
    a = b := by
  cases h with
  | none => rfl
  | some h => rw [h.holds_eq.2 hno]

/-- `args.isDefault === true`. -/
def isDefaultOf : Option Json → Bool
  | some (.bool b) => b
  | _ => false

theorem isDefaultOf_alike {toLowerCase : String → String} {a b : Option Json}
    (h : Option.Rel (Alike toLowerCase) a b) : isDefaultOf a = isDefaultOf b := by
  cases h with
  | none => rfl
  | some h => cases h <;> rfl

theorem connectorProposal_eq (args : Json.Record) : connectorProposal ctx args =
    match optionalString (Json.field args "template"), optionalString (Json.field args "name"),
      asRecord (Json.field args "config") with
    | none, _, _ => .error "Error: \"template\" is required."
    | some _, none, _ => .error "Error: \"name\" is required."
    | some _, some _, none => .error "Error: \"config\" must be an object."
    | some template, some name, some config => .ok ⟨ctx.caller.orgId, template, name, config,
        asRecord (Json.field args "scope"), isDefaultOf (Json.field args "isDefault"),
        ctx.caller.userId⟩ := by
  rw [connectorProposal]
  rfl

theorem AlikeFields.refused_eq (h : AsciiLower ctx.platform.toLowerCase)
    (hargs : AlikeFields ctx.platform.toLowerCase args args') :
    refused ctx.platform.toLowerCase args = refused ctx.platform.toLowerCase args' := by
  rw [refused, refused, hargs.hasCredential_eq,
    any_hasCredential (asRecord_alike (hargs.read h (by decide)))]

theorem AlikeFields.lacks_iff (h : AsciiLower ctx.platform.toLowerCase)
    (hargs : AlikeFields ctx.platform.toLowerCase args args') :
    Lacks ctx args ↔ Lacks ctx args' := by
  have htemplate : optionalString (Json.field args "template") = _ :=
    optionalString_alike (hargs.read h (by decide))
  have hname : optionalString (Json.field args "name") = _ :=
    optionalString_alike (hargs.read h (by decide))
  have hconfig : asRecord (Json.field args "config") = none ↔ _ :=
    rel_none_iff (asRecord_alike (hargs.read h (by decide)))
  rw [Lacks, Lacks, htemplate, hname, hconfig]

theorem AlikeFields.proposal_eq (h : AsciiLower ctx.platform.toLowerCase)
    (hargs : AlikeFields ctx.platform.toLowerCase args args')
    (hno : credentialPresent ctx.platform.toLowerCase args = false) :
    proposedConnector ctx args = proposedConnector ctx args' := by
  rw [credentialPresent, Bool.or_eq_false_iff] at hno
  have hconfig : Json.field args "config" = _ :=
    eq_of_not_holds (hargs.read h (by decide)) hno.1
  have hscope : Json.field args "scope" = _ := eq_of_not_holds (hargs.read h (by decide)) hno.2
  have htemplate : optionalString (Json.field args "template") = _ :=
    optionalString_alike (hargs.read h (by decide))
  have hname : optionalString (Json.field args "name") = _ :=
    optionalString_alike (hargs.read h (by decide))
  have hdefault : isDefaultOf (Json.field args "isDefault") = _ :=
    isDefaultOf_alike (hargs.read h (by decide))
  rw [proposedConnector_eq, proposedConnector_eq, hargs.refused_eq h, connectorProposal_eq,
    connectorProposal_eq, htemplate, hname, hconfig, hscope, hdefault]

/-- **What is withheld**: a credential in `config` or `scope` is kept from the service exactly
when the call is refused or lacks something. -/
theorem withholds_iff (h : AsciiLower ctx.platform.toLowerCase) : Withholds ctx args ↔
    (credentialPresent ctx.platform.toLowerCase args = true →
      refused ctx.platform.toLowerCase args = true ∨ Lacks ctx args) := by
  constructor
  · exact fun hwithholds hpresent => proposedConnector_none_iff.mp (hwithholds.2 hpresent)
  · intro hcaught
    refine ⟨fun args' hargs => ?_, fun hpresent => proposedConnector_none_iff.mpr
      (hcaught hpresent)⟩
    cases hpresent : credentialPresent ctx.platform.toLowerCase args with
    | false => exact hargs.proposal_eq h hpresent
    | true =>
      -- both are refused, or both lack the same
      have hnone := hcaught hpresent
      rw [proposedConnector_none_iff.mpr hnone]
      rw [hargs.refused_eq h, hargs.lacks_iff h] at hnone
      exact (proposedConnector_none_iff.mpr hnone).symm

end Reaching

/-- **How far redaction and refusal reach.** Events of arguments that differ in credentials are
the same exactly when no credential stands in an array the redaction comes to; nothing of a
credential reaches the service exactly when one that is present is refused or the proposal
lacks something; the copy is faithful exactly when it loses no field and hides no empty value. -/
theorem redaction_iff {κ δ : Type} (ctx : ToolContext κ δ)
    (h : AsciiLower ctx.platform.toLowerCase) (args : Json.Record) :
    (EventHides ctx.platform.toLowerCase args ↔
      exposesField ctx.platform.toLowerCase (proposeParams args) = false) ∧
    (Withholds ctx args ↔ (credentialPresent ctx.platform.toLowerCase args = true →
      refused ctx.platform.toLowerCase args = true ∨ Lacks ctx args)) ∧
    (CopiesRest ctx.platform.toLowerCase args ↔
      copiesFields ctx.platform.toLowerCase (proposeParams args) = true) :=
  ⟨eventHides_iff h, withholds_iff h, alike_redactParams_iff _⟩

def loweringContext : ToolContext (List String × List (String × String)) (List String) :=
  { wiredContext with platform := { wiredContext.platform with toLowerCase := String.toLower } }

/-- A password in `config`. -/
def passwordGiven : Json.Record :=
  [("template", .str "prometheus"), ("name", .str "main"),
    ("config", .obj [("url", .str "http://prometheus"), ("Password", .str "hunter2")])]

theorem redaction_iff_password : EventHides String.toLower passwordGiven ∧
    Withholds loweringContext passwordGiven ∧ CopiesRest String.toLower passwordGiven := by
  obtain ⟨hevent, hwithholds, hcopies⟩ :=
    redaction_iff loweringContext (fun _ _ => rfl) passwordGiven
  exact ⟨hevent.mpr (by decide +kernel), hwithholds.mpr fun _ => Or.inl (by decide +kernel),
    hcopies.mpr (by decide +kernel)⟩

def headersGiven (value : String) : Json.Record :=
  [("template", .str "prometheus"), ("name", .str "main"),
    ("config", .obj [("headers", .arr [.obj [("authorization", .str value)]])])]

theorem header_shown : ¬ ∀ {κ δ : Type} (ctx : ToolContext κ δ) (args : Json.Record),
    AsciiLower ctx.platform.toLowerCase →
    EventHides ctx.platform.toLowerCase args ∧ Withholds ctx args := by
  intro h
  have hpresent := (h loweringContext (headersGiven "Bearer a") fun _ _ => rfl).2.2
    (by decide +kernel)
  have hreaches : (proposedConnector loweringContext (headersGiven "Bearer a")).isSome = true := by
    decide +kernel
  rw [hpresent] at hreaches
  cases hreaches

end OpenObs.Agent
