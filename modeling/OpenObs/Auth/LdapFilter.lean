import OpenObs.Foundation.Json
import OpenObs.Foundation.Replacement

/-!
# The search filter of a directory login

`auth/ldap/filter-escape.ts` and `authenticate` of `auth/ldap/client.ts`: the login is escaped and
put into the template of the filter. It is put in as a replacement, so a `$` in it keeps the
meaning it has there. The directory is a parameter.
-/

namespace OpenObs.Auth

open OpenObs.Foundation

namespace Ldap

/-! ## The code -/

def escapeLdapFilterValue (input : List Char) : List Char :=
  let s := Replacement.replaceAll ['\\'] ['\\', '5', 'c'] input
  let s := Replacement.replaceAll ['*'] ['\\', '2', 'a'] s
  let s := Replacement.replaceAll ['('] ['\\', '2', '8'] s
  let s := Replacement.replaceAll [')'] ['\\', '2', '9'] s
  Replacement.replaceAll ['\x00'] ['\\', '0', '0'] s

structure LdapAttributes where
  username : String
  email : String
  name : String
  memberOf : String

structure LdapServerConfig where
  bindDn : String
  bindPassword : String
  searchFilter : List Char
  searchBaseDns : List String
  attributes : LdapAttributes

structure LdapLookupInput where
  login : List Char
  password : String

structure LdapUserRecord where
  dn : String
  username : String
  email : String
  name : String
  groupDns : List String

structure SearchOptions where
  filter : List Char
  scope : String
  attributes : List String

inductive LdapRequest : Type where
  | bind (dn pw : String)
  | search (base : String) (opts : SearchOptions)
  | unbind

structure Directory where
  adminBind : Except String Unit
  search : String → SearchOptions → Except String (List Json.Record)
  userBind : String → String → Except String Unit

def extractString (obj : Json.Record) (key : String) : Option String :=
  match Json.field obj key with
  | some (.str v) => some v
  | some (.arr (.str v :: _)) => some v
  | _ => none

def extractList (obj : Json.Record) (key : String) : List String :=
  match Json.field obj key with
  | some (.str v) => [v]
  | some (.arr vs) => vs.filterMap Json.asString
  | _ => []

section Code

variable (dir : Directory) (cfg : LdapServerConfig) (input : LdapLookupInput)

def searchFilter : List Char :=
  Replacement.replaceAll ['%', 's'] (escapeLdapFilterValue input.login) cfg.searchFilter

def searchOptions : SearchOptions where
  filter := searchFilter cfg input
  scope := "sub"
  attributes := ["dn", cfg.attributes.username, cfg.attributes.email, cfg.attributes.name,
    cfg.attributes.memberOf]

def searchBases : List String → Except String (Option Json.Record) × List LdapRequest
  | [] => (.ok none, [])
  | base :: rest =>
    let sent := LdapRequest.search base (searchOptions cfg input)
    match dir.search base (searchOptions cfg input) with
    | .error e => (.error e, [sent])
    | .ok (entry :: _) => (.ok (some entry), [sent])
    | .ok [] => ((searchBases rest).1, sent :: (searchBases rest).2)

def recordOf (dn : String) (entry : Json.Record) : LdapUserRecord where
  dn
  username := (extractString entry cfg.attributes.username).getD (String.ofList input.login)
  email := (extractString entry cfg.attributes.email).getD ""
  name := (extractString entry cfg.attributes.name).getD (String.ofList input.login)
  groupDns := extractList entry cfg.attributes.memberOf

def bindEntry (entry : Json.Record) : Option LdapUserRecord × List LdapRequest :=
  match (extractString entry "dn").filter (· ≠ "") with
  | none => (none, [])
  | some dn =>
    match dir.userBind dn input.password with
    | .error _ => (none, [.bind dn input.password])
    | .ok _ => (some (recordOf cfg input dn entry), [.bind dn input.password])

def authenticate : Except String (Option LdapUserRecord) × List LdapRequest :=
  let admin := LdapRequest.bind cfg.bindDn cfg.bindPassword
  match dir.adminBind with
  | .error e => (.error e, [admin, .unbind])
  | .ok _ =>
    let found := searchBases dir cfg input cfg.searchBaseDns
    match found.1 with
    | .error e => (.error e, admin :: found.2 ++ [.unbind])
    | .ok none => (.ok none, admin :: found.2 ++ [.unbind])
    | .ok (some entry) =>
      let bound := bindEntry dir cfg input entry
      (.ok bound.1, admin :: found.2 ++ bound.2 ++ [.unbind])

end Code

/-! ## Values of a filter -/

def isHexDigit (c : Char) : Bool :=
  ('0' ≤ c ∧ c ≤ '9') ∨ ('a' ≤ c ∧ c ≤ 'f') ∨ ('A' ≤ c ∧ c ≤ 'F')

def hexValue (c : Char) : ℕ :=
  if c ≤ '9' then c.toNat - '0'.toNat
  else if c ≤ 'F' then c.toNat - 'A'.toNat + 10
  else c.toNat - 'a'.toNat + 10

def decode : List Char → List Char
  | '\\' :: h :: l :: rest => Char.ofNat (16 * hexValue h + hexValue l) :: decode rest
  | c :: rest => c :: decode rest
  | [] => []

def Escaped : List Char → Prop
  | [] => True
  | c :: rest => (c = '\\' → ∃ h l more, rest = h :: l :: more ∧
      isHexDigit h = true ∧ isHexDigit l = true) ∧ Escaped rest

structure Inert (v : List Char) : Prop where
  bare : ∀ c ∈ v, c ∉ ['(', ')', '*', '\x00']
  escaped : Escaped v

/-! ## The escaped login -/

section Escape

def escapeChar (c : Char) : List Char :=
  if c = '\\' then ['\\', '5', 'c']
  else if c = '*' then ['\\', '2', 'a']
  else if c = '(' then ['\\', '2', '8']
  else if c = ')' then ['\\', '2', '9']
  else if c = '\x00' then ['\\', '0', '0']
  else [c]

theorem escape_eq (input : List Char) : escapeLdapFilterValue input = input.flatMap escapeChar := by
  have hliteral (a b : Char) (ha : a ≠ '$') : Replacement.Literal ['\\', a, b] := by
    simp [Replacement.Literal, ha]
  unfold escapeLdapFilterValue
  rw [Replacement.replaceAll_literal (hliteral _ _ (by decide)),
    Replacement.replaceAll_literal (hliteral _ _ (by decide)),
    Replacement.replaceAll_literal (hliteral _ _ (by decide)),
    Replacement.replaceAll_literal (hliteral _ _ (by decide)),
    Replacement.replaceAll_literal (hliteral _ _ (by decide))]
  simp only [Replacement.substitute_singleton, List.flatMap_assoc]
  refine congrArg (List.flatMap · input) (funext fun c => ?_)
  unfold escapeChar
  by_cases h₁ : c = '\\'
  · subst h₁
    rfl
  by_cases h₂ : c = '*'
  · subst h₂
    rfl
  by_cases h₃ : c = '('
  · subst h₃
    rfl
  by_cases h₄ : c = ')'
  · subst h₄
    rfl
  by_cases h₅ : c = '\x00'
  · subst h₅
    rfl
  simp [h₁, h₂, h₃, h₄, h₅]

/-- An escape, or a character that needs none. -/
theorem escapeChar_cases (c : Char) :
    (∃ h l, escapeChar c = ['\\', h, l] ∧ isHexDigit h = true ∧ isHexDigit l = true ∧
      Char.ofNat (16 * hexValue h + hexValue l) = c) ∨
    (escapeChar c = [c] ∧ c ≠ '\\' ∧ c ∉ ['(', ')', '*', '\x00']) := by
  unfold escapeChar
  by_cases h₁ : c = '\\'
  · subst h₁
    exact Or.inl ⟨'5', 'c', rfl, by decide, by decide, by decide⟩
  by_cases h₂ : c = '*'
  · subst h₂
    exact Or.inl ⟨'2', 'a', rfl, by decide, by decide, by decide⟩
  by_cases h₃ : c = '('
  · subst h₃
    exact Or.inl ⟨'2', '8', rfl, by decide, by decide, by decide⟩
  by_cases h₄ : c = ')'
  · subst h₄
    exact Or.inl ⟨'2', '9', rfl, by decide, by decide, by decide⟩
  by_cases h₅ : c = '\x00'
  · subst h₅
    exact Or.inl ⟨'0', '0', rfl, by decide, by decide, by decide⟩
  exact Or.inr ⟨by simp [h₁, h₂, h₃, h₄, h₅], h₁, by simp [h₂, h₃, h₄, h₅]⟩

theorem bare_of_isHexDigit {c : Char} (h : isHexDigit c = true) :
    c ∉ ['(', ')', '*', '\x00'] ∧ c ≠ '\\' := by
  constructor
  · rintro hin
    simp only [List.mem_cons, List.not_mem_nil, or_false] at hin
    rcases hin with rfl | rfl | rfl | rfl <;> exact absurd h (by decide)
  · rintro rfl
    exact absurd h (by decide)

theorem bare_escape {c d : Char} (h : d ∈ escapeChar c) : d ∉ ['(', ')', '*', '\x00'] := by
  rcases escapeChar_cases c with ⟨a, b, heq, ha, hb, -⟩ | ⟨heq, -, hbare⟩
  · rw [heq] at h
    simp only [List.mem_cons, List.not_mem_nil, or_false] at h
    rcases h with rfl | rfl | rfl
    · decide
    · exact (bare_of_isHexDigit ha).1
    · exact (bare_of_isHexDigit hb).1
  · rw [heq] at h
    rw [List.mem_singleton.mp h]
    exact hbare

theorem escaped_escape (c : Char) {rest : List Char} (h : Escaped rest) :
    Escaped (escapeChar c ++ rest) := by
  rcases escapeChar_cases c with ⟨a, b, heq, ha, hb, -⟩ | ⟨heq, hne, -⟩
  · rw [heq]
    refine ⟨fun _ => ⟨a, b, rest, rfl, ha, hb⟩, fun hback => ?_, fun hback => ?_, h⟩
    · exact absurd hback (bare_of_isHexDigit ha).2
    · exact absurd hback (bare_of_isHexDigit hb).2
  · rw [heq]
    exact ⟨fun hback => absurd hback hne, h⟩

theorem decode_escape (c : Char) (rest : List Char) :
    decode (escapeChar c ++ rest) = c :: decode rest := by
  rcases escapeChar_cases c with ⟨a, b, heq, -, -, hvalue⟩ | ⟨heq, hne, -⟩
  · rw [heq]
    show decode ('\\' :: a :: b :: rest) = _
    rw [decode, hvalue]
  · rw [heq, List.singleton_append, decode]
    rintro h l more rfl
    exact fun _ => hne rfl

theorem inert_escape (login : List Char) : Inert (login.flatMap escapeChar) := by
  refine ⟨fun d hd => ?_, ?_⟩
  · obtain ⟨c, -, hd⟩ := List.mem_flatMap.mp hd
    exact bare_escape hd
  · induction login with
    | nil => trivial
    | cons c login ih => exact escaped_escape c ih

theorem decode_flatMap (login : List Char) : decode (login.flatMap escapeChar) = login := by
  induction login with
  | nil => rfl
  | cons c login ih => rw [List.flatMap_cons, decode_escape, ih]

/-- What an escaped login starts with. -/
theorem head_escape {login : List Char} {d : Char}
    (h : d ∈ (login.flatMap escapeChar).head?) : d = '\\' ∨ d ∈ login.head? := by
  cases login with
  | nil => cases h
  | cons c login =>
    rw [List.flatMap_cons] at h
    rcases escapeChar_cases c with ⟨a, b, heq, -⟩ | ⟨heq, -⟩
    · rw [heq] at h
      cases h
      exact Or.inl rfl
    · rw [heq] at h
      exact Or.inr h

/-- Escaping puts no character behind a `$` that has a meaning there. -/
theorem literal_escape {login : List Char} (h : Replacement.Literal login) :
    Replacement.Literal (login.flatMap escapeChar) := by
  induction login with
  | nil => exact List.IsChain.nil
  | cons c login ih =>
    rw [List.flatMap_cons]
    refine List.isChain_append.mpr ⟨?_, ih (List.IsChain.tail h), fun x hx y hy => ?_⟩
    · rcases escapeChar_cases c with ⟨a, b, heq, ha, -⟩ | ⟨heq, -⟩
      · rw [heq]
        refine List.isChain_cons_cons.mpr ⟨fun hc => absurd hc (by decide), ?_⟩
        refine List.isChain_cons_cons.mpr ⟨?_, List.isChain_singleton b⟩
        rintro rfl
        exact absurd ha (by decide)
      · rw [heq]
        exact List.isChain_singleton c
    · rcases escapeChar_cases c with ⟨a, b, heq, -, hb, -⟩ | ⟨heq, -⟩
      · rw [heq] at hx
        cases hx
        rintro rfl
        exact absurd hb (by decide)
      · rw [heq] at hx
        cases hx
        intro hdollar
        rcases head_escape hy with rfl | hy
        · decide
        · cases login with
          | nil => cases hy
          | cons d login =>
            cases hy
            exact (List.isChain_cons_cons.mp h).1 hdollar

end Escape

/-! ## Every filter that is sent -/

def filtersSent (requests : List LdapRequest) : List (List Char) :=
  requests.filterMap fun
    | .search _ opts => some opts.filter
    | _ => none

theorem filters_searchBases {dir : Directory} {cfg : LdapServerConfig} {input : LdapLookupInput} :
    ∀ bases, ∀ f ∈ filtersSent (searchBases dir cfg input bases).2, f = searchFilter cfg input
  | [], f, hf => absurd hf List.not_mem_nil
  | base :: rest, f, hf => by
    rw [searchBases] at hf
    split at hf
    · exact List.mem_singleton.mp hf
    · exact List.mem_singleton.mp hf
    · rcases List.mem_cons.mp hf with rfl | hf
      · rfl
      · exact filters_searchBases rest f hf

theorem filters_bindEntry {dir : Directory} {cfg : LdapServerConfig} {input : LdapLookupInput}
    {entry : Json.Record} : filtersSent (bindEntry dir cfg input entry).2 = [] := by
  unfold bindEntry
  split
  · rfl
  · split <;> rfl

theorem filters_authenticate {dir : Directory} {cfg : LdapServerConfig} {input : LdapLookupInput}
    {f : List Char} (h : f ∈ filtersSent (authenticate dir cfg input).2) :
    f = searchFilter cfg input := by
  have hsearches := @filters_searchBases dir cfg input cfg.searchBaseDns f
  unfold authenticate at h
  dsimp only at h
  split at h
  · cases h
  · split at h
    · rw [filtersSent, List.filterMap_append] at h
      simp only [List.filterMap_cons, List.filterMap_nil, List.append_nil] at h
      exact hsearches h
    · rw [filtersSent, List.filterMap_append] at h
      simp only [List.filterMap_cons, List.filterMap_nil, List.append_nil] at h
      exact hsearches h
    next entry _ =>
      have hbound := @filters_bindEntry dir cfg input entry
      rw [filtersSent] at hbound
      rw [filtersSent, List.filterMap_append, List.filterMap_append, hbound] at h
      simp only [List.filterMap_cons, List.filterMap_nil, List.append_nil] at h
      exact hsearches h

/-- **A literal login cannot leave its place in the filter.** Where the template has no place for a
login, or no `$` of the login stands before a character it has a meaning before, every filter sent
is the template with one inert value that stands for the login. -/
theorem filter_inert (dir : Directory) (cfg : LdapServerConfig) (input : LdapLookupInput)
    (h : ¬ ['%', 's'] <:+: cfg.searchFilter ∨ Replacement.Literal input.login) :
    ∀ f ∈ filtersSent (authenticate dir cfg input).2, ∃ v,
      f = Replacement.substitute ['%', 's'] v cfg.searchFilter ∧ Inert v ∧
        decode v = input.login := by
  intro f hf
  refine ⟨input.login.flatMap escapeChar, ?_, inert_escape _, decode_flatMap _⟩
  rw [filters_authenticate hf, searchFilter, escape_eq]
  rcases h with habsent | hliteral
  · exact Replacement.replaceAll_absent habsent
  · exact Replacement.replaceAll_literal (literal_escape hliteral) _

def anyDirectory : Directory where
  adminBind := .ok ()
  search _ _ := .ok []
  userBind _ _ := .ok ()

def byName : LdapServerConfig where
  bindDn := "cn=admin"
  bindPassword := "secret"
  searchFilter := ['(', 'c', 'n', '=', '%', 's', ')']
  searchBaseDns := ["ou=people"]
  attributes := ⟨"cn", "mail", "name", "memberOf"⟩

theorem filter_inert_ana :
    filtersSent (authenticate anyDirectory byName ⟨['a', '*', '('], "pw"⟩).2 =
      ["(cn=a\\2a\\28)".toList] ∧
    ∀ f ∈ filtersSent (authenticate anyDirectory byName ⟨['a', '*', '('], "pw"⟩).2, ∃ v,
      f = Replacement.substitute ['%', 's'] v byName.searchFilter ∧ Inert v ∧
        decode v = ['a', '*', '('] :=
  ⟨by decide, filter_inert anyDirectory byName ⟨['a', '*', '('], "pw"⟩ (Or.inr (by decide))⟩

/-- A login that brings the beginning of the filter in again. -/
theorem dollar_injects : ¬ ∀ (dir : Directory) (cfg : LdapServerConfig) (input : LdapLookupInput),
    ∀ f ∈ filtersSent (authenticate dir cfg input).2, ∃ v,
      f = Replacement.substitute ['%', 's'] v cfg.searchFilter ∧ Inert v ∧
        decode v = input.login := by
  intro h
  obtain ⟨v, hv, hinert, -⟩ := h anyDirectory byName ⟨['$', Char.ofNat 96], "pw"⟩
    ['(', 'c', 'n', '=', '(', 'c', 'n', '=', ')'] (by decide +kernel)
  have hvalue : ['(', 'c', 'n', '=', ')'] = v ++ [')'] := by
    have hplace : Replacement.substitute ['%', 's'] v byName.searchFilter =
        ['(', 'c', 'n', '='] ++ (v ++ [')']) := rfl
    rw [hplace] at hv
    exact (List.append_right_inj ['(', 'c', 'n', '=']).mp hv
  have hopen : ['(', 'c', 'n', '='] = v := (List.append_left_inj [')']).mp hvalue
  exact hinert.bare '(' (hopen ▸ List.mem_cons_self) (by decide)

/-! ## Who is let in -/

/-- The conversation with a directory: searches under the admin's bind, then at most one bind as
somebody else, and one end. -/
structure Conversation (dir : Directory) (cfg : LdapServerConfig) (input : LdapLookupInput)
    (searches bound : List LdapRequest) : Prop where
  sent : (authenticate dir cfg input).2 =
    LdapRequest.bind cfg.bindDn cfg.bindPassword :: searches ++ bound ++ [.unbind]
  searched : ∃ bases, bases <+: cfg.searchBaseDns ∧
    searches = bases.map fun base => LdapRequest.search base (searchOptions cfg input)
  once : bound = [] ∨ ∃ dn, dn ≠ "" ∧ bound = [.bind dn input.password]
  record : ∀ rec, (authenticate dir cfg input).1 = .ok (some rec) →
    rec.dn ≠ "" ∧ bound = [.bind rec.dn input.password] ∧
      dir.userBind rec.dn input.password = .ok () ∧ ∃ before base after entry rest,
        cfg.searchBaseDns = before ++ base :: after ∧
        (∀ earlier ∈ before, dir.search earlier (searchOptions cfg input) = .ok []) ∧
        dir.search base (searchOptions cfg input) = .ok (entry :: rest) ∧
        extractString entry "dn" = some rec.dn

section Conversation

variable {dir : Directory} {cfg : LdapServerConfig} {input : LdapLookupInput}

theorem searched_searchBases : ∀ all : List String, ∃ bases, bases <+: all ∧
    (searchBases dir cfg input all).2 =
      bases.map fun base => LdapRequest.search base (searchOptions cfg input)
  | [] => ⟨[], List.nil_prefix, rfl⟩
  | base :: rest => by
    rw [searchBases]
    split
    · exact ⟨[base], ⟨rest, rfl⟩, rfl⟩
    · exact ⟨[base], ⟨rest, rfl⟩, rfl⟩
    · obtain ⟨bases, hbases, heq⟩ := searched_searchBases rest
      exact ⟨base :: bases, List.cons_prefix_cons.mpr ⟨rfl, hbases⟩, congrArg _ heq⟩

theorem first_searchBases {entry : Json.Record} : ∀ {all : List String},
    (searchBases dir cfg input all).1 = .ok (some entry) → ∃ before base after rest,
      all = before ++ base :: after ∧
      (∀ earlier ∈ before, dir.search earlier (searchOptions cfg input) = .ok []) ∧
      dir.search base (searchOptions cfg input) = .ok (entry :: rest)
  | [], h => by cases h
  | base :: all, h => by
    rw [searchBases] at h
    split at h
    · cases h
    next _ rest hanswer =>
      cases h
      exact ⟨[], base, all, rest, rfl, by simp, hanswer⟩
    next hanswer =>
      obtain ⟨before, found, after, rest, rfl, hbefore, hfound⟩ := first_searchBases h
      refine ⟨base :: before, found, after, rest, rfl, ?_, hfound⟩
      exact List.forall_mem_cons.mpr ⟨hanswer, hbefore⟩

theorem bindEntry_cases (entry : Json.Record) :
    bindEntry dir cfg input entry = (none, []) ∨
    ∃ dn, extractString entry "dn" = some dn ∧ dn ≠ "" ∧
      (bindEntry dir cfg input entry = (none, [.bind dn input.password]) ∨
        dir.userBind dn input.password = .ok () ∧ bindEntry dir cfg input entry =
          (some (recordOf cfg input dn entry), [.bind dn input.password])) := by
  unfold bindEntry
  split
  · exact Or.inl rfl
  next dn hdn =>
    obtain ⟨hdn, hne⟩ := Option.filter_eq_some_iff.mp hdn
    refine Or.inr ⟨dn, hdn, of_decide_eq_true hne, ?_⟩
    split
    · exact Or.inl rfl
    next hbind => exact Or.inr ⟨hbind, rfl⟩

theorem conversation_of_none {answer : Except String (Option LdapUserRecord)}
    {searches : List LdapRequest}
    (hrun : authenticate dir cfg input =
      (answer, .bind cfg.bindDn cfg.bindPassword :: searches ++ [.unbind]))
    (hsearched : ∃ bases, bases <+: cfg.searchBaseDns ∧
      searches = bases.map fun base => LdapRequest.search base (searchOptions cfg input))
    (hnone : ∀ rec, answer ≠ .ok (some rec)) : Conversation dir cfg input searches [] where
  sent := by rw [hrun, List.append_nil]
  searched := hsearched
  once := Or.inl rfl
  record rec h := by
    rw [hrun] at h
    exact absurd h (hnone rec)

theorem conversation_of_entry {entry : Json.Record}
    (hrun : authenticate dir cfg input = (.ok (bindEntry dir cfg input entry).1,
      .bind cfg.bindDn cfg.bindPassword :: (searchBases dir cfg input cfg.searchBaseDns).2 ++
        (bindEntry dir cfg input entry).2 ++ [.unbind]))
    (hfound : (searchBases dir cfg input cfg.searchBaseDns).1 = .ok (some entry)) :
    Conversation dir cfg input (searchBases dir cfg input cfg.searchBaseDns).2
      (bindEntry dir cfg input entry).2 where
  sent := by rw [hrun]
  searched := searched_searchBases cfg.searchBaseDns
  once := by
    rcases bindEntry_cases entry with heq | ⟨dn, -, hne, heq | ⟨-, heq⟩⟩
    · exact Or.inl (by rw [heq])
    · exact Or.inr ⟨dn, hne, by rw [heq]⟩
    · exact Or.inr ⟨dn, hne, by rw [heq]⟩
  record rec h := by
    rw [hrun] at h
    rcases bindEntry_cases entry with heq | ⟨dn, hdn, hne, heq | ⟨hbind, heq⟩⟩
    · rw [heq] at h
      cases h
    · rw [heq] at h
      cases h
    · rw [heq] at h
      cases h
      obtain ⟨before, base, after, rest, hall, hbefore, hsearch⟩ := first_searchBases hfound
      exact ⟨hne, by rw [heq]; rfl, hbind, before, base, after, entry, rest, hall, hbefore,
        hsearch, hdn⟩

end Conversation

/-- **A record stands for a bind with the password that was given.** -/
theorem record_bound (dir : Directory) (cfg : LdapServerConfig) (input : LdapLookupInput) :
    ∃ searches bound, Conversation dir cfg input searches bound := by
  have hsearched := @searched_searchBases dir cfg input cfg.searchBaseDns
  cases hadmin : dir.adminBind with
  | error e =>
    have hrun : authenticate dir cfg input =
        (.error e, .bind cfg.bindDn cfg.bindPassword :: [] ++ [.unbind]) := by
      rw [authenticate, hadmin]
      rfl
    exact ⟨[], [], conversation_of_none hrun ⟨[], List.nil_prefix, rfl⟩ nofun⟩
  | ok _ =>
    rcases hfound : (searchBases dir cfg input cfg.searchBaseDns).1 with e | _ | entry
    · have hrun : authenticate dir cfg input = (.error e, .bind cfg.bindDn cfg.bindPassword ::
          (searchBases dir cfg input cfg.searchBaseDns).2 ++ [.unbind]) := by
        simp only [authenticate, hadmin, hfound]
      exact ⟨_, [], conversation_of_none hrun hsearched nofun⟩
    · have hrun : authenticate dir cfg input = (.ok none, .bind cfg.bindDn cfg.bindPassword ::
          (searchBases dir cfg input cfg.searchBaseDns).2 ++ [.unbind]) := by
        simp only [authenticate, hadmin, hfound]
      exact ⟨_, [], conversation_of_none hrun hsearched nofun⟩
    · refine ⟨_, _, conversation_of_entry ?_ hfound⟩
      simp only [authenticate, hadmin, hfound]

end Ldap

end OpenObs.Auth
