import Mathlib
import OpenObs.Foundation.Distinct
import OpenObs.Rbac.Tokens

/-!
# Loading tools on demand

`agent/tool-search.ts` and `agent/handlers/tool-search.ts` over the split of the registry in
`agent/tool-schema-registry.ts`. The query is the model's text.
-/

namespace OpenObs.Agent

open OpenObs.Foundation

/-! ## The registry -/

inductive ToolCategory : Type where
  | alwaysOn
  | deferred
deriving DecidableEq

structure ToolDefinition where
  name : String
  description : String
  input_schema : Json

structure ToolRegistryEntry where
  category : ToolCategory
  schema : ToolDefinition

def NON_LLM_TOOLS : List String := ["llm.complete", "verifier.run"]

/-- A registry: each schema is filed under its name, and no name is one that every object
has, or the name of what every object has under `constructor`. -/
structure ToolRegistry where
  entries : List (String × ToolRegistryEntry)
  keys_nodup : (entries.map (·.1)).Nodup
  keyed : ∀ e ∈ entries, e.2.schema.name = e.1
  callable : ∀ e ∈ entries, e.1 ∉ NON_LLM_TOOLS
  named : ∀ e ∈ entries, e.1 ≠ "" ∧ e.1 ≠ "Object" ∧ Inherited.find e.1 = none

def toolCategories : List (String × ToolCategory) :=
  [("connectors_list", .alwaysOn), ("connectors_suggest", .alwaysOn),
    ("connectors_pin", .deferred), ("connectors_unpin", .deferred), ("metrics_query", .deferred),
    ("metrics_range_query", .deferred), ("metrics_validate", .deferred),
    ("metric_explore", .alwaysOn), ("logs_query", .deferred), ("logs_labels", .deferred),
    ("logs_label_values", .deferred), ("changes_list_recent", .deferred),
    ("ops_run_command", .alwaysOn), ("remediation_plan_create", .alwaysOn),
    ("remediation_plan_create_rescue", .deferred), ("dashboard_create", .alwaysOn),
    ("dashboard_list", .alwaysOn), ("dashboard_clone", .alwaysOn),
    ("dashboard_add_panels", .alwaysOn), ("dashboard_remove_panels", .alwaysOn),
    ("dashboard_modify_panel", .alwaysOn), ("dashboard_set_title", .alwaysOn),
    ("dashboard_add_variable", .alwaysOn), ("folder_create", .deferred),
    ("folder_list", .deferred), ("investigation_create", .alwaysOn),
    ("investigation_list", .deferred), ("investigation_add_section", .deferred),
    ("investigation_complete", .deferred), ("alert_rule_write", .deferred),
    ("alert_rule_list", .deferred), ("alert_rule_history", .deferred), ("web_search", .alwaysOn),
    ("navigate", .alwaysOn), ("tool_search", .alwaysOn), ("connector_list", .alwaysOn),
    ("connector_template_list", .deferred), ("connector_detect", .deferred),
    ("connector_propose", .deferred), ("connector_apply", .deferred),
    ("connector_test", .deferred), ("setting_get", .deferred), ("setting_set", .deferred),
    ("ask_user", .alwaysOn)]

theorem toolCategories_nodup : (toolCategories.map (·.1)).Nodup := by decide +kernel

theorem toolCategories_named : ∀ e ∈ toolCategories,
    e.1 ∉ NON_LLM_TOOLS ∧ e.1 ≠ "" ∧ e.1 ≠ "Object" ∧ Inherited.find e.1 = none := by
  decide +kernel

def TOOL_REGISTRY (texts : String → String × Json) : ToolRegistry where
  entries := toolCategories.map fun e =>
    (e.1, ⟨e.2, ⟨e.1, (texts e.1).1, (texts e.1).2⟩⟩)
  keys_nodup := by
    rw [List.map_map]
    exact toolCategories_nodup
  keyed e he := by
    obtain ⟨e', -, rfl⟩ := List.mem_map.mp he
    rfl
  callable e he := by
    obtain ⟨e', he', rfl⟩ := List.mem_map.mp he
    exact (toolCategories_named e' he').1
  named e he := by
    obtain ⟨e', he', rfl⟩ := List.mem_map.mp he
    exact (toolCategories_named e' he').2

section Registry

variable (registry : ToolRegistry)

def lookupEntry (name : String) : Except String (Property ToolRegistryEntry) :=
  match property registry.entries name with
  | none => .error ("Tool schema missing for \"" ++ name ++
      "\" — add an entry in tool-schema-registry.ts")
  | some entry => .ok entry

/-- `entry.category`, which nothing inherited has. -/
def entryCategory : Property ToolRegistryEntry → Option ToolCategory
  | .own entry => some entry.category
  | .inherited _ => none

/-- The second filter of `deferredToolNamesForAgent`, which fails at a name it does not find. -/
def filterDeferred : List String → Except String (List String)
  | [] => .ok []
  | name :: rest => do
      let entry ← lookupEntry registry name
      let names ← filterDeferred rest
      pure (if entryCategory entry = some .deferred then name :: names else names)

def deferredToolNamesForAgent (allowedTools : List String) : Except String (List String) :=
  filterDeferred registry (allowedTools.filter (· ∉ NON_LLM_TOOLS))

abbrev Catalog := List (String × ToolDefinition)

/-- The loop of `deferredCatalog`. -/
def catalogOf (names : List String) : Catalog :=
  names.eraseDups.filterMap fun name =>
    match property registry.entries name with
    | some (.own entry) => some (name, entry.schema)
    | _ => none

def catalogNames : Option (List String) → Except String (List String)
  | some allowedTools => deferredToolNamesForAgent registry allowedTools
  | none => .ok ((registry.entries.filter (·.2.category = .deferred)).map (·.1))

def deferredCatalog (allowedTools : Option (List String)) : Except String Catalog := do
  let names ← catalogNames registry allowedTools
  pure (catalogOf registry names)

end Registry

/-! ## Search -/

def MAX_RESULTS : ℕ := 8

def SELECT_PREFIX : String := "select:"

/-- The loop of `selectTools`: what was found, and under which names. -/
def selectLoop (registry : Catalog) :
    List String → List (Property ToolDefinition) → List String → List (Property ToolDefinition)
  | [], out, _ => out
  | raw :: rest, out, seen =>
    let name := Rbac.trim raw
    if name = "" ∨ name ∈ seen then selectLoop registry rest out seen
    else
      match property registry name with
      | none => selectLoop registry rest out seen
      | some definition =>
        if MAX_RESULTS ≤ out.length + 1 then out ++ [definition]
        else selectLoop registry rest (out ++ [definition]) (seen ++ [name])

def selectTools (names : List String) (registry : Catalog) : List (Property ToolDefinition) :=
  selectLoop registry names [] []

section Search

variable (toLowerCase : String → String) (localeCompare : String → String → ℤ)

/-- `s.split(/\s+/).filter(Boolean)`. -/
def words (s : String) : List String :=
  ((s.toList.splitOnP Scan.isSpace).filter (· ≠ [])).map String.ofList

/-- `name.replace(/([a-z])([A-Z])/g, '$1 $2')`. -/
def splitCamelCase : List Char → List Char
  | c :: d :: rest =>
    if 'a' ≤ c ∧ c ≤ 'z' ∧ 'A' ≤ d ∧ d ≤ 'Z' then c :: ' ' :: splitCamelCase (d :: rest)
    else c :: splitCamelCase (d :: rest)
  | cs => cs

def parseNameParts (name : String) : List String :=
  words (toLowerCase (String.ofList
    ((splitCamelCase name.toList).map fun c => if c = '_' ∨ c = '.' then ' ' else c)))

/-- `\w`. -/
def wordChar (c : Char) : Bool :=
  ('a' ≤ c ∧ c ≤ 'z') ∨ ('A' ≤ c ∧ c ≤ 'Z') ∨ ('0' ≤ c ∧ c ≤ '9') ∨ c = '_'

/-- `\b` between the text before and the text behind. -/
def wordBoundary (before behind : List Char) : Bool :=
  (before.getLast?.any wordChar) ≠ (behind.head?.any wordChar)

/-- `\bterm\b` somewhere in the text behind. -/
def wordMatches (term : List Char) (before : List Char) : List Char → Bool
  | [] => term = [] ∧ wordBoundary before []
  | c :: behind =>
    (term.isPrefixOf (c :: behind) && wordBoundary before (c :: behind) &&
      wordBoundary (before ++ term) ((c :: behind).drop term.length)) ||
    wordMatches term (before ++ [c]) behind

def W_NAME_PART_EXACT : ℕ := 10
def W_NAME_PART_PREFIX : ℕ := 5
def W_DESC_WORD : ℕ := 2

structure Scored where
  definition : ToolDefinition
  score : ℕ
  termsHit : ℕ

def nameScore (nameParts : List String) (term : String) : ℕ :=
  if term ∈ nameParts then W_NAME_PART_EXACT
  else if nameParts.any (Text.startsWith · term) then W_NAME_PART_PREFIX
  else 0

def scoreTool (terms : List String) (definition : ToolDefinition) : Scored :=
  let nameParts := parseNameParts toLowerCase definition.name
  let descLower := (toLowerCase definition.description).toList
  let scores := terms.map fun term => nameScore nameParts term +
    if wordMatches term.toList [] descLower then W_DESC_WORD else 0
  ⟨definition, scores.sum, (scores.filter (0 < ·)).length⟩

def ranksBefore (a b : Scored) : Bool :=
  if a.termsHit ≠ b.termsHit then b.termsHit < a.termsHit
  else if a.score ≠ b.score then b.score < a.score
  else localeCompare a.definition.name b.definition.name ≤ 0

def rankTools (terms : List String) (registry : Catalog) : List ToolDefinition :=
  let scored := (registry.map fun e => scoreTool toLowerCase terms e.2).filter (0 < ·.score)
  ((scored.mergeSort (ranksBefore localeCompare)).take MAX_RESULTS).map (·.definition)

/-- The search behind the `select:` branch. -/
def searchKeywords (queryLower : String) (registry : Catalog) : List ToolDefinition :=
  let values := registry.map (·.2)
  match values.find? fun d => toLowerCase d.name = queryLower with
  | some d => [d]
  | none =>
    let prefixMatches :=
      (values.filter fun d => Text.startsWith (toLowerCase d.name) queryLower).take MAX_RESULTS
    if ('_' ∈ queryLower.toList ∧ ' ' ∉ queryLower.toList) ∧ prefixMatches ≠ [] then
      prefixMatches
    else
      let terms := words queryLower
      if terms = [] then [] else rankTools toLowerCase localeCompare terms registry

def isSelect (trimmed : String) : Bool := Text.startsWith (toLowerCase trimmed) SELECT_PREFIX

def selectCsv (trimmed : String) : List String :=
  Text.split (Text.slice trimmed SELECT_PREFIX.length) ','

def searchTools (query : String) (registry : Catalog) : List (Property ToolDefinition) :=
  let trimmed := Rbac.trim query
  if trimmed = "" then []
  else if isSelect toLowerCase trimmed then selectTools (selectCsv trimmed) registry
  else (searchKeywords toLowerCase localeCompare (toLowerCase trimmed) registry).map .own

end Search

/-! ## The result -/

structure ToolSearchResult where
  observation : String
  /-- The names of the definitions; what is inherited may have none. -/
  loaded : List (Option String)
  error : Option String := none

section Resolve

variable (registry : ToolRegistry) (toLowerCase : String → String)
  (localeCompare : String → String → ℤ) (stringify : Json → String)

def shownDefinition : Property ToolDefinition → Json
  | .own d => .obj [("description", .str d.description), ("name", .str d.name),
      ("parameters", d.input_schema)]
  | .inherited i => .obj (i.name.map (("name", .str ·))).toList

def formatToolSearchObservation (defs : List (Property ToolDefinition)) : String :=
  if defs.isEmpty then
    "No tools matched. Refine the query or use `select:<name>` to load a known tool by exact " ++
      "name."
  else
    let lines := defs.map fun d =>
      "<function>" ++ stringify (shownDefinition d) ++ "</function>"
    "<functions>\n" ++ Text.join lines '\n' ++ "\n</functions>"

/-- `def.name`. -/
def definitionName : Property ToolDefinition → Option String
  | .own d => some d.name
  | .inherited i => i.name

def queryRequired : String :=
  "Error: \"query\" is required. Use \"select:<name>[,<name>...]\" to load known tools by " ++
    "name, or whitespace-separated keywords to search."

def resolveToolSearch (query : String) (allowedTools : Option (List String)) :
    Except String ToolSearchResult :=
  let trimmed := Rbac.trim query
  if trimmed = "" then .ok ⟨queryRequired, [], some queryRequired⟩
  else do
    let catalog ← deferredCatalog registry allowedTools
    let defs :=
      if isSelect toLowerCase trimmed then selectTools (selectCsv trimmed) catalog
      else searchTools toLowerCase localeCompare trimmed catalog
    pure ⟨formatToolSearchObservation stringify defs, defs.map definitionName, none⟩

end Resolve

/-! ## The ceiling -/

section Ceiling

variable (registry : ToolRegistry) (toLowerCase : String → String)
  (localeCompare : String → String → ℤ) (stringify : Json → String)

def permitted (allowedTools : Option (List String)) (name : String) : Bool :=
  (registry.entries.lookup name).any (·.category = .deferred) ∧
    allowedTools.all fun tools => decide (name ∈ tools)

/-- The names a `select:` query asks for. -/
def requested (query : String) : List String :=
  (selectCsv (Rbac.trim query)).map Rbac.trim

def offered (allowedTools : Option (List String)) (names : List String) : List String :=
  (names.filter (permitted registry allowedTools)).eraseDups

def StaysInside (query : String) (allowedTools : Option (List String)) : Prop :=
  ∀ result, resolveToolSearch registry toLowerCase localeCompare stringify query allowedTools =
      .ok result →
    ∃ names : List String, result.loaded = names.map some ∧ names.Nodup ∧
      names.length ≤ MAX_RESULTS ∧ (∀ name ∈ names, permitted registry allowedTools name = true) ∧
      (Rbac.trim query ≠ "" → isSelect toLowerCase (Rbac.trim query) = true →
        names = (offered registry allowedTools (requested query)).take MAX_RESULTS)

def Drifts (allowedTools : Option (List String)) : Prop :=
  ∃ tools, allowedTools = some tools ∧
    ∃ name ∈ tools, name ∉ NON_LLM_TOOLS ∧ property registry.entries name = none

def AsksForTools (query : String) (allowedTools : Option (List String)) : Prop :=
  ∀ before name, before ++ [name] <+: requested query → Inherited.find name ≠ none →
    MAX_RESULTS ≤ (offered registry allowedTools before).length

end Ceiling

/-! ## What the catalog holds -/

section Catalog

variable {registry : ToolRegistry} {allowedTools : Option (List String)} {catalog : Catalog}
  {names : List String} {name : String}

def isDeferred (registry : ToolRegistry) (name : String) : Bool :=
  (registry.entries.lookup name).any (·.category = .deferred)

theorem mem_entries_of_lookup {entry : ToolRegistryEntry}
    (h : registry.entries.lookup name = some entry) : (name, entry) ∈ registry.entries := by
  obtain ⟨before, after, hsplit, -⟩ := List.lookup_eq_some_iff.mp h
  rw [hsplit]
  exact List.mem_append_right _ List.mem_cons_self

theorem lookup_of_mem_entries {entry : ToolRegistryEntry}
    (h : (name, entry) ∈ registry.entries) : registry.entries.lookup name = some entry := by
  obtain ⟨before, after, hsplit⟩ := List.append_of_mem h
  refine List.lookup_eq_some_iff.mpr ⟨before, after, hsplit, fun e he => ?_⟩
  have hnodup := registry.keys_nodup
  rw [hsplit, List.map_append, List.map_cons] at hnodup
  exact bne_iff_ne.mpr ((List.nodup_append.mp hnodup).2.2 e.1 (List.mem_map_of_mem he) name
    List.mem_cons_self).symm

theorem isDeferred_iff : isDeferred registry name = true ↔
    ∃ entry, registry.entries.lookup name = some entry ∧ entry.category = .deferred := by
  rw [isDeferred]
  cases registry.entries.lookup name <;> simp

theorem entryCategory_property {entry : Property ToolRegistryEntry}
    (h : property registry.entries name = some entry) :
    entryCategory entry = some .deferred ↔ isDeferred registry name = true := by
  rw [isDeferred_iff]
  unfold property at h
  cases hlookup : registry.entries.lookup name with
  | some own =>
    rw [hlookup] at h
    cases h
    simp [entryCategory]
  | none =>
    rw [hlookup] at h
    obtain ⟨i, -, rfl⟩ := Option.map_eq_some_iff.mp h
    simp [entryCategory]

theorem filterDeferred_ok {l : List String} (h : filterDeferred registry l = .ok names) :
    names = l.filter (isDeferred registry) := by
  induction l generalizing names with
  | nil => exact (Except.ok.inj h).symm
  | cons name rest ih =>
    rw [filterDeferred, lookupEntry] at h
    cases hproperty : property registry.entries name with
    | none =>
      rw [hproperty] at h
      cases h
    | some entry =>
      rw [hproperty] at h
      cases hrest : filterDeferred registry rest with
      | error e =>
        rw [hrest] at h
        cases h
      | ok more =>
        rw [hrest] at h
        obtain rfl := Except.ok.inj h
        rw [List.filter_cons, ih hrest]
        simp only [entryCategory_property hproperty]

theorem filterDeferred_error_iff : ∀ {l : List String},
    (∃ e, filterDeferred registry l = .error e) ↔
      ∃ name ∈ l, property registry.entries name = none
  | [] => by simp [filterDeferred]
  | name :: rest => by
    have ih := filterDeferred_error_iff (l := rest)
    rw [filterDeferred, lookupEntry]
    cases hproperty : property registry.entries name with
    | none =>
      exact iff_of_true ⟨_, rfl⟩ ⟨name, List.mem_cons_self, hproperty⟩
    | some entry =>
      simp only [List.mem_cons, exists_eq_or_imp, hproperty, reduceCtorEq, false_or, ← ih]
      cases filterDeferred registry rest with
      | error e => exact iff_of_true ⟨e, rfl⟩ ⟨e, rfl⟩
      | ok more => exact iff_of_false (fun ⟨e, he⟩ => nomatch he) fun ⟨e, he⟩ => nomatch he

theorem isDeferred_callable (h : isDeferred registry name = true) : name ∉ NON_LLM_TOOLS := by
  obtain ⟨entry, hentry, -⟩ := isDeferred_iff.mp h
  exact registry.callable _ (mem_entries_of_lookup hentry)

theorem mem_catalogNames (h : catalogNames registry allowedTools = .ok names) :
    name ∈ names ↔ permitted registry allowedTools name = true := by
  rw [permitted, decide_eq_true_iff, ← isDeferred]
  cases allowedTools with
  | some tools =>
    rw [catalogNames, deferredToolNamesForAgent] at h
    rw [filterDeferred_ok h, List.mem_filter, List.mem_filter]
    simp only [decide_eq_true_eq, Option.all_some]
    constructor
    · rintro ⟨⟨hmem, -⟩, hdeferred⟩
      exact ⟨hdeferred, hmem⟩
    · rintro ⟨hdeferred, hmem⟩
      exact ⟨⟨hmem, isDeferred_callable hdeferred⟩, hdeferred⟩
  | none =>
    obtain rfl := Except.ok.inj h
    simp only [Option.all_none, and_true, isDeferred_iff, List.mem_map, List.mem_filter,
      decide_eq_true_eq]
    constructor
    · rintro ⟨⟨key, entry⟩, ⟨hmem, hdeferred⟩, rfl⟩
      exact ⟨entry, lookup_of_mem_entries hmem, hdeferred⟩
    · rintro ⟨entry, hentry, hdeferred⟩
      exact ⟨(name, entry), ⟨mem_entries_of_lookup hentry, hdeferred⟩, rfl⟩

theorem catalogNames_error_iff :
    (∃ e, catalogNames registry allowedTools = .error e) ↔ Drifts registry allowedTools := by
  cases allowedTools with
  | none => simp [catalogNames, Drifts]
  | some tools =>
    rw [catalogNames, deferredToolNamesForAgent, filterDeferred_error_iff]
    simp [Drifts, and_assoc]

theorem mem_catalog (h : deferredCatalog registry allowedTools = .ok catalog)
    {e : String × ToolDefinition} (he : e ∈ catalog) :
    e.2.name = e.1 ∧ permitted registry allowedTools e.1 = true := by
  rw [deferredCatalog] at h
  cases hnames : catalogNames registry allowedTools with
  | error e =>
    rw [hnames] at h
    cases h
  | ok names =>
    rw [hnames] at h
    obtain rfl := Except.ok.inj h
    obtain ⟨name, hname, hfound⟩ := List.mem_filterMap.mp he
    rw [List.mem_eraseDups, mem_catalogNames hnames] at hname
    unfold property at hfound
    cases hlookup : registry.entries.lookup name with
    | none =>
      rw [hlookup] at hfound
      cases hinherited : Inherited.find name <;> simp [hinherited] at hfound
    | some entry =>
      rw [hlookup] at hfound
      obtain rfl := Option.some.inj hfound
      exact ⟨registry.keyed _ (mem_entries_of_lookup hlookup), hname⟩

theorem catalog_keys (h : deferredCatalog registry allowedTools = .ok catalog) :
    (catalog.map (·.1)).Nodup ∧
      ∀ name, name ∈ catalog.map (·.1) ↔ permitted registry allowedTools name = true := by
  rw [deferredCatalog] at h
  cases hnames : catalogNames registry allowedTools with
  | error e =>
    rw [hnames] at h
    cases h
  | ok names =>
    rw [hnames] at h
    obtain rfl := Except.ok.inj h
    -- every one of the names is filed
    have hkeys : (catalogOf registry names).map (·.1) = names.eraseDups := by
      rw [catalogOf, List.map_filterMap]
      refine (List.filterMap_congr fun name hname => ?_).trans List.filterMap_some
      rw [List.mem_eraseDups, mem_catalogNames hnames, permitted, decide_eq_true_iff] at hname
      obtain ⟨entry, hentry, -⟩ := isDeferred_iff.mp hname.1
      simp [property, hentry]
    rw [hkeys]
    exact ⟨nodup_eraseDups names, fun name => by
      rw [List.mem_eraseDups, mem_catalogNames hnames]⟩

theorem catalog_error_iff : (∃ e, deferredCatalog registry allowedTools = .error e) ↔
    Drifts registry allowedTools := by
  rw [← catalogNames_error_iff, deferredCatalog]
  cases catalogNames registry allowedTools with
  | error e => exact iff_of_true ⟨e, rfl⟩ ⟨e, rfl⟩
  | ok names => exact iff_of_false (fun ⟨e, he⟩ => nomatch he) fun ⟨e, he⟩ => nomatch he

end Catalog

/-! ## Explicit selection -/

section Select

variable {registry : ToolRegistry} {allowedTools : Option (List String)} {catalog : Catalog}
  {name : String}

theorem permitted_named (h : permitted registry allowedTools name = true) :
    name ≠ "" ∧ name ≠ "Object" ∧ Inherited.find name = none := by
  rw [permitted, decide_eq_true_iff] at h
  obtain ⟨entry, hentry, -⟩ := isDeferred_iff.mp h.1
  exact registry.named _ (mem_entries_of_lookup hentry)

theorem property_permitted (hcatalog : deferredCatalog registry allowedTools = .ok catalog)
    (h : permitted registry allowedTools name = true) :
    ∃ d : ToolDefinition, property catalog name = some (.own d) ∧ d.name = name := by
  have hkey := ((catalog_keys hcatalog).2 name).mpr h
  rw [property]
  cases hlookup : catalog.lookup name with
  | none =>
    obtain ⟨e, he, rfl⟩ := List.mem_map.mp hkey
    exact absurd rfl (bne_iff_ne.mp (List.lookup_eq_none_iff.mp hlookup e he))
  | some d =>
    obtain ⟨before, after, hsplit, -⟩ := List.lookup_eq_some_iff.mp hlookup
    have he : (name, d) ∈ catalog := by
      rw [hsplit]
      exact List.mem_append_right _ List.mem_cons_self
    exact ⟨d, rfl, (mem_catalog hcatalog he).1⟩

theorem property_not_permitted
    (hcatalog : deferredCatalog registry allowedTools = .ok catalog)
    (h : permitted registry allowedTools name = false) :
    property catalog name = (Inherited.find name).map .inherited := by
  have hnone : catalog.lookup name = none := by
    refine List.lookup_eq_none_iff.mpr fun e he => bne_iff_ne.mpr ?_
    rintro rfl
    rw [(mem_catalog hcatalog he).2] at h
    cases h
  rw [property, hnone]

variable (registry allowedTools) in
theorem offered_concat (names : List String) (name : String) :
    offered registry allowedTools (names ++ [name]) =
      if permitted registry allowedTools name = true ∧ name ∉ offered registry allowedTools names
      then offered registry allowedTools names ++ [name]
      else offered registry allowedTools names := by
  cases h : permitted registry allowedTools name with
  | false => simp [offered, h]
  | true =>
    rw [offered, List.filter_append, List.filter_cons_of_pos h, List.filter_nil,
      eraseDups_concat]
    rw [addToSet, ← offered]
    by_cases hmem : name ∈ offered registry allowedTools names
    · rw [if_pos hmem, if_neg fun hno => hno.2 hmem]
    · rw [if_neg hmem, if_pos ⟨rfl, hmem⟩]

variable (registry allowedTools) in
theorem offered_append (names more : List String) :
    offered registry allowedTools names <+: offered registry allowedTools (names ++ more) := by
  rw [offered, offered, List.filter_append, List.eraseDups_append]
  exact List.prefix_append _ _

theorem selectLoop_mono {d : Property ToolDefinition} : ∀ {names : List String}
    {out : List (Property ToolDefinition)} {seen : List String}, d ∈ out →
    d ∈ selectLoop catalog names out seen
  | [], _, _, h => h
  | raw :: rest, out, seen, h => by
    rw [selectLoop]
    split
    · exact selectLoop_mono h
    · split
      · exact selectLoop_mono h
      · split
        · exact List.mem_append_left _ h
        · exact selectLoop_mono (List.mem_append_left _ h)

theorem selectLoop_clear (hcatalog : deferredCatalog registry allowedTools = .ok catalog)
    {names : List String} : ∀ {before : List String} {out : List (Property ToolDefinition)},
    (offered registry allowedTools before).length < MAX_RESULTS →
    out.map definitionName = (offered registry allowedTools before).map some →
    (∀ more name, more ++ [name] <+: names.map Rbac.trim → Inherited.find name ≠ none →
      MAX_RESULTS ≤ (offered registry allowedTools (before ++ more)).length) →
    (selectLoop catalog names out (offered registry allowedTools before)).map definitionName =
      ((offered registry allowedTools (before ++ names.map Rbac.trim)).take MAX_RESULTS).map
        some := by
  induction names with
  | nil =>
    intro before out hroom hout _
    rw [selectLoop, hout, List.map_nil, List.append_nil, List.take_of_length_le hroom.le]
  | cons raw rest ih =>
    intro before out hroom hout hclear
    have hlength : out.length = (offered registry allowedTools before).length := by
      simpa using congrArg List.length hout
    have hnext : ∀ more name, more ++ [name] <+: rest.map Rbac.trim →
        Inherited.find name ≠ none → MAX_RESULTS ≤
          (offered registry allowedTools (before ++ [Rbac.trim raw] ++ more)).length := by
      intro more name hmore hname
      rw [List.append_assoc]
      exact hclear (Rbac.trim raw :: more) name
        (List.cons_prefix_cons.mpr ⟨rfl, hmore⟩) hname
    have hsplit : before ++ (raw :: rest).map Rbac.trim =
        before ++ [Rbac.trim raw] ++ rest.map Rbac.trim := by simp
    -- a name that adds nothing is passed over
    have hskip : offered registry allowedTools (before ++ [Rbac.trim raw]) =
        offered registry allowedTools before →
        (selectLoop catalog rest out (offered registry allowedTools before)).map
          definitionName =
        ((offered registry allowedTools (before ++ (raw :: rest).map Rbac.trim)).take
          MAX_RESULTS).map some := by
      intro hsame
      rw [hsplit, ← hsame]
      exact ih (by rw [hsame]; exact hroom) (by rw [hsame]; exact hout) hnext
    have hconcat := offered_concat registry allowedTools before (Rbac.trim raw)
    rw [selectLoop]
    split
    next hseen =>
      refine hskip (hconcat.trans (if_neg fun hnew => ?_))
      exact hseen.elim (permitted_named hnew.1).1 hnew.2
    next hnew =>
      rw [not_or] at hnew
      cases hpermitted : permitted registry allowedTools (Rbac.trim raw) with
      | false =>
        have hnone : Inherited.find (Rbac.trim raw) = none := by
          by_contra hne
          have hfull := hclear [] (Rbac.trim raw) (List.cons_prefix_cons.mpr
            ⟨rfl, List.nil_prefix⟩) hne
          rw [List.append_nil] at hfull
          exact absurd hroom (Nat.not_lt.mpr hfull)
        rw [property_not_permitted hcatalog hpermitted, hnone]
        exact hskip (hconcat.trans (if_neg fun h => by simp [hpermitted] at h))
      | true =>
        obtain ⟨d, hd, hname⟩ := property_permitted hcatalog hpermitted
        rw [if_pos ⟨hpermitted, hnew.2⟩] at hconcat
        have hout' : (out ++ [Property.own d]).map definitionName =
            (offered registry allowedTools (before ++ [Rbac.trim raw])).map some := by
          rw [hconcat, List.map_append, List.map_append, hout]
          simp [definitionName, hname]
        rw [hd]
        dsimp only
        split
        next hfull =>
          have hlast := offered_append registry allowedTools (before ++ [Rbac.trim raw])
            (rest.map Rbac.trim)
          have height : (offered registry allowedTools (before ++ [Rbac.trim raw])).length =
              MAX_RESULTS := by
            rw [hconcat, List.length_append, List.length_singleton]
            omega
          rw [hout', hsplit, ← height, ← List.prefix_iff_eq_take.mp hlast]
        next hmore =>
          rw [← hconcat, hsplit]
          refine ih ?_ hout' hnext
          rw [hconcat, List.length_append, List.length_singleton]
          omega

theorem selectLoop_trapped (hcatalog : deferredCatalog registry allowedTools = .ok catalog)
    {names : List String} : ∀ {before more : List String} {out : List (Property ToolDefinition)},
    out.map definitionName = (offered registry allowedTools before).map some →
    more ++ [name] <+: names.map Rbac.trim → Inherited.find name ≠ none →
    (offered registry allowedTools (before ++ more)).length < MAX_RESULTS →
    ∃ asked i, Inherited.find asked = some i ∧ .inherited i ∈
      selectLoop catalog names out (offered registry allowedTools before) := by
  induction names with
  | nil =>
    intro before more out _ hmore
    simp at hmore
  | cons raw rest ih =>
    intro before more out hout hmore hname hroom
    have hlength : out.length = (offered registry allowedTools before).length := by
      simpa using congrArg List.length hout
    have hconcat := offered_concat registry allowedTools before (Rbac.trim raw)
    -- an inherited definition stays among what is found
    have found : ∀ i, Inherited.find (Rbac.trim raw) = some i → ∃ asked i,
        Inherited.find asked = some i ∧ .inherited i ∈
          selectLoop catalog (raw :: rest) out (offered registry allowedTools before) := by
      intro i hi
      have hpermitted : permitted registry allowedTools (Rbac.trim raw) = false := by
        by_contra htrue
        have hnone := (permitted_named (Bool.not_eq_false _ ▸ htrue)).2.2
        rw [hi] at hnone
        cases hnone
      have hold : ¬ (Rbac.trim raw = "" ∨
          Rbac.trim raw ∈ offered registry allowedTools before) := by
        rintro (hempty | hmem)
        · rw [hempty, show Inherited.find "" = none by decide] at hi
          cases hi
        · have hin := (List.mem_filter.mp (List.mem_eraseDups.mp hmem)).2
          rw [hpermitted] at hin
          cases hin
      refine ⟨Rbac.trim raw, i, hi, ?_⟩
      rw [selectLoop, if_neg hold, property_not_permitted hcatalog hpermitted, hi]
      dsimp only [Option.map_some]
      split
      · exact List.mem_append_right _ List.mem_cons_self
      · exact selectLoop_mono (List.mem_append_right _ List.mem_cons_self)
    cases more with
    | nil =>
      obtain ⟨rfl, -⟩ := List.cons_prefix_cons.mp hmore
      obtain ⟨i, hi⟩ := Option.ne_none_iff_exists'.mp hname
      exact found i hi
    | cons first more =>
      obtain ⟨rfl, hrest⟩ := List.cons_prefix_cons.mp hmore
      have hroom' : (offered registry allowedTools
          (before ++ [Rbac.trim raw] ++ more)).length < MAX_RESULTS := by
        rwa [List.append_assoc]
      have hskip : offered registry allowedTools (before ++ [Rbac.trim raw]) =
          offered registry allowedTools before → ∃ asked i,
            Inherited.find asked = some i ∧ .inherited i ∈
              selectLoop catalog rest out (offered registry allowedTools before) := by
        intro hsame
        rw [← hsame]
        exact ih (by rw [hsame]; exact hout) hrest hname hroom'
      cases hfind : Inherited.find (Rbac.trim raw) with
      | some i => exact found i hfind
      | none =>
        rw [selectLoop]
        split
        next hseen =>
          refine hskip (hconcat.trans (if_neg fun hnew => ?_))
          exact hseen.elim (permitted_named hnew.1).1 hnew.2
        next hnew =>
          rw [not_or] at hnew
          cases hpermitted : permitted registry allowedTools (Rbac.trim raw) with
          | false =>
            rw [property_not_permitted hcatalog hpermitted, hfind]
            exact hskip (hconcat.trans (if_neg fun h => by simp [hpermitted] at h))
          | true =>
            obtain ⟨d, hd, hdname⟩ := property_permitted hcatalog hpermitted
            rw [if_pos ⟨hpermitted, hnew.2⟩] at hconcat
            have hlater := (offered_append registry allowedTools
              (before ++ [Rbac.trim raw]) more).length_le
            rw [hconcat, List.length_append, List.length_singleton] at hlater
            rw [hd]
            dsimp only
            rw [if_neg (by omega), ← hconcat]
            refine ih ?_ hrest hname hroom'
            rw [hconcat, List.map_append, List.map_append, hout]
            simp [definitionName, hdname]

theorem selectTools_clear (hcatalog : deferredCatalog registry allowedTools = .ok catalog)
    {query : String} (h : AsksForTools registry query allowedTools) :
    (selectTools (selectCsv (Rbac.trim query)) catalog).map definitionName =
      ((offered registry allowedTools (requested query)).take MAX_RESULTS).map some := by
  have hnone : offered registry allowedTools [] = [] := rfl
  have hloop : (selectLoop catalog (selectCsv (Rbac.trim query)) []
      (offered registry allowedTools [])).map definitionName =
      ((offered registry allowedTools ([] ++ (selectCsv (Rbac.trim query)).map Rbac.trim)).take
        MAX_RESULTS).map some :=
    selectLoop_clear hcatalog (by rw [hnone]; decide) (by rw [hnone]; rfl) h
  rw [hnone, List.nil_append] at hloop
  rw [selectTools, hloop, requested]

theorem selectTools_trapped (hcatalog : deferredCatalog registry allowedTools = .ok catalog)
    {query : String} (h : ¬ AsksForTools registry query allowedTools) :
    ∃ asked i, Inherited.find asked = some i ∧
      .inherited i ∈ selectTools (selectCsv (Rbac.trim query)) catalog := by
  rw [AsksForTools] at h
  push Not at h
  obtain ⟨more, name, hmore, hname, hroom⟩ := h
  have hnone : offered registry allowedTools [] = [] := rfl
  have hloop : ∃ asked i, Inherited.find asked = some i ∧ .inherited i ∈ selectLoop catalog
      (selectCsv (Rbac.trim query)) [] (offered registry allowedTools []) :=
    selectLoop_trapped hcatalog (by rw [hnone]; rfl) hmore hname hroom
  rw [hnone] at hloop
  exact hloop

end Select

/-! ## Search by keywords -/

section Keywords

variable {registry : ToolRegistry} {allowedTools : Option (List String)} {catalog : Catalog}
  {toLowerCase : String → String} {localeCompare : String → String → ℤ}

theorem rankTools_subperm (terms : List String) (catalog : Catalog) :
    (rankTools toLowerCase localeCompare terms catalog).Subperm (catalog.map (·.2)) := by
  have hdefs : (((catalog.map fun e => scoreTool toLowerCase terms e.2).filter
      (0 < ·.score)).map (·.definition)).Sublist (catalog.map (·.2)) := by
    refine (List.filter_sublist.map _).trans ?_
    rw [List.map_map]
    exact List.Sublist.refl _
  rw [rankTools, List.map_take]
  exact (List.take_sublist _ _).subperm.trans
    (((List.mergeSort_perm _ _).map _).subperm.trans hdefs.subperm)

theorem searchKeywords_subperm (queryLower : String) (catalog : Catalog) :
    (searchKeywords toLowerCase localeCompare queryLower catalog).Subperm
      (catalog.map (·.2)) := by
  rw [searchKeywords]
  dsimp only
  split
  next d hd => exact List.singleton_subperm_iff.mpr (List.mem_of_find?_eq_some hd)
  · split
    · exact ((List.take_sublist _ _).trans List.filter_sublist).subperm
    · split
      · exact List.nil_subperm
      · exact rankTools_subperm _ catalog

theorem length_searchKeywords (queryLower : String) (catalog : Catalog) :
    (searchKeywords toLowerCase localeCompare queryLower catalog).length ≤ MAX_RESULTS := by
  rw [searchKeywords]
  dsimp only
  split
  · exact Nat.le_of_ble_eq_true rfl
  · split
    · exact List.length_take_le _ _
    · split
      · exact Nat.zero_le _
      · rw [rankTools, List.length_map]
        exact List.length_take_le _ _

theorem keywords_inside (toLowerCase : String → String) (localeCompare : String → String → ℤ)
    (hcatalog : deferredCatalog registry allowedTools = .ok catalog) (queryLower : String) :
    ((searchKeywords toLowerCase localeCompare queryLower catalog).map (·.name)).Nodup ∧
      ∀ name ∈ (searchKeywords toLowerCase localeCompare queryLower catalog).map (·.name),
        permitted registry allowedTools name = true := by
  obtain ⟨found, hperm, hsub⟩ :
      (searchKeywords toLowerCase localeCompare queryLower catalog).Subperm (catalog.map (·.2)) :=
    searchKeywords_subperm queryLower catalog
  have hnames : (catalog.map (·.2)).map (·.name) = catalog.map (·.1) := by
    rw [List.map_map]
    exact List.map_congr_left fun e he => (mem_catalog hcatalog he).1
  have hkeys := hsub.map (·.name)
  rw [hnames] at hkeys
  refine ⟨(hperm.map _).nodup_iff.mp (hkeys.nodup (catalog_keys hcatalog).1), fun name hname => ?_⟩
  exact ((catalog_keys hcatalog).2 name).mp (hkeys.subset ((hperm.map _).mem_iff.mpr hname))

end Keywords

/-! ## The two ways together -/

theorem trim_trim (s : String) : Rbac.trim (Rbac.trim s) = Rbac.trim s := by
  have hdrop : ∀ l : List Char,
      (List.rdropWhile Scan.isSpace (l.dropWhile Scan.isSpace)).dropWhile Scan.isSpace =
        List.rdropWhile Scan.isSpace (l.dropWhile Scan.isSpace) := by
    intro l
    refine List.dropWhile_eq_self_iff.mpr fun hpos => ?_
    have hleft := List.rdropWhile_prefix Scan.isSpace (l := l.dropWhile Scan.isSpace)
    have hlong := hpos.trans_le hleft.length_le
    rw [hleft.getElem hpos]
    exact List.dropWhile_get_zero_not _ l hlong
  change String.ofList (List.rdropWhile Scan.isSpace
    ((String.ofList _).toList.dropWhile Scan.isSpace)) = String.ofList _
  rw [String.toList_ofList]
  refine congrArg String.ofList ((congrArg _ (hdrop _)).trans ?_)
  exact List.rdropWhile_idempotent _ _

theorem inherited_not_permitted {registry : ToolRegistry} {allowedTools : Option (List String)}
    {asked name : String} {i : Inherited} (h : Inherited.find asked = some i)
    (hname : i.name = some name) : permitted registry allowedTools name = false := by
  by_contra hpermitted
  obtain ⟨-, hobject, hfind⟩ := permitted_named (Bool.not_eq_false _ ▸ hpermitted)
  unfold Inherited.find at h
  split at h
  · cases h
    exact hobject (Option.some.inj hname).symm
  · split at h
    · cases h
      cases hname
    · split at h
      · cases h
        cases hname
        rename_i hmember
        rw [Inherited.find, if_pos hmember] at hfind
        split at hfind <;> cases hfind
      · cases h

section Settled

variable {registry : ToolRegistry} {toLowerCase : String → String}
  {localeCompare : String → String → ℤ} {stringify : Json → String} {query : String}
  {allowedTools : Option (List String)} {catalog : Catalog}

theorem inside_keywords (hquery : Rbac.trim query ≠ "")
    (hselect : isSelect toLowerCase (Rbac.trim query) = false) :
    StaysInside registry toLowerCase localeCompare stringify query allowedTools := by
  intro result hresult
  rw [resolveToolSearch] at hresult
  dsimp only at hresult
  rw [if_neg hquery] at hresult
  cases hcatalog : deferredCatalog registry allowedTools with
  | error e =>
    rw [hcatalog] at hresult
    cases hresult
  | ok catalog =>
    rw [hcatalog] at hresult
    obtain rfl := Except.ok.inj hresult
    obtain ⟨hnodup, hinside⟩ := keywords_inside toLowerCase localeCompare hcatalog
      (toLowerCase (Rbac.trim query))
    refine ⟨_, ?_, hnodup, ?_, hinside, fun _ h => ?_⟩
    · simp only [hselect, Bool.false_eq_true, if_false, searchTools, trim_trim, hquery,
        List.map_map]
      rfl
    · rw [List.length_map]
      exact length_searchKeywords _ _
    · rw [hselect] at h
      cases h

theorem inside_of_error {e : String} (hquery : Rbac.trim query ≠ "")
    (he : deferredCatalog registry allowedTools = .error e) :
    StaysInside registry toLowerCase localeCompare stringify query allowedTools := by
  intro result hresult
  rw [resolveToolSearch] at hresult
  dsimp only at hresult
  rw [if_neg hquery, he] at hresult
  cases hresult

theorem resolve_select (hquery : Rbac.trim query ≠ "")
    (hselect : isSelect toLowerCase (Rbac.trim query) = true)
    (hcatalog : deferredCatalog registry allowedTools = .ok catalog) :
    resolveToolSearch registry toLowerCase localeCompare stringify query allowedTools =
      .ok ⟨formatToolSearchObservation stringify
          (selectTools (selectCsv (Rbac.trim query)) catalog),
        (selectTools (selectCsv (Rbac.trim query)) catalog).map definitionName, none⟩ := by
  rw [resolveToolSearch]
  dsimp only
  rw [if_neg hquery, hcatalog]
  simp only [hselect, if_true]
  rfl

theorem inside_select_iff (hquery : Rbac.trim query ≠ "")
    (hselect : isSelect toLowerCase (Rbac.trim query) = true)
    (hcatalog : deferredCatalog registry allowedTools = .ok catalog) :
    StaysInside registry toLowerCase localeCompare stringify query allowedTools ↔
      AsksForTools registry query allowedTools := by
  constructor
  · intro hinside
    by_contra hasks
    obtain ⟨names, hloaded, -, -, hpermitted, -⟩ :=
      hinside _ (resolve_select hquery hselect hcatalog)
    obtain ⟨asked, i, hasked, hi⟩ := selectTools_trapped hcatalog hasks
    have hmem := List.mem_map_of_mem (f := definitionName) hi
    dsimp only at hloaded
    rw [hloaded] at hmem
    obtain ⟨shown, hshown, heq⟩ := List.mem_map.mp hmem
    have hno : permitted registry allowedTools shown = false :=
      inherited_not_permitted hasked heq.symm
    rw [hpermitted shown hshown] at hno
    cases hno
  · intro hclear result hresult
    obtain rfl := Except.ok.inj ((resolve_select hquery hselect hcatalog).symm.trans hresult)
    have hloaded := selectTools_clear hcatalog hclear
    refine ⟨(offered registry allowedTools (requested query)).take MAX_RESULTS, ?_,
      (List.take_sublist _ _).nodup (nodup_eraseDups _), List.length_take_le _ _,
      fun name h => ?_, fun _ _ => rfl⟩
    · dsimp only
      rw [hloaded]
    · exact (List.mem_filter.mp (List.mem_eraseDups.mp (List.mem_of_mem_take h))).2

end Settled

/-- **Tool search stays under the ceiling** exactly when the query is not a selection, or fails
on an allowed tool without a schema, or asks for no name that every object has before its
eighth tool is found. -/
theorem stays_inside_iff (registry : ToolRegistry) (toLowerCase : String → String)
    (localeCompare : String → String → ℤ) (stringify : Json → String) (query : String)
    (allowedTools : Option (List String)) :
    StaysInside registry toLowerCase localeCompare stringify query allowedTools ↔
      Rbac.trim query = "" ∨ isSelect toLowerCase (Rbac.trim query) = false ∨
        Drifts registry allowedTools ∨ AsksForTools registry query allowedTools := by
  by_cases hquery : Rbac.trim query = ""
  · refine iff_of_true (fun result hresult => ?_) (Or.inl hquery)
    rw [resolveToolSearch] at hresult
    dsimp only at hresult
    rw [if_pos hquery] at hresult
    obtain rfl := Except.ok.inj hresult
    exact ⟨[], rfl, List.nodup_nil, Nat.zero_le _, fun name h => absurd h List.not_mem_nil,
      fun hne => absurd hquery hne⟩
  · cases hselect : isSelect toLowerCase (Rbac.trim query) with
    | false => exact iff_of_true (inside_keywords hquery hselect) (Or.inr (Or.inl rfl))
    | true =>
      simp only [hquery, Bool.true_eq_false, false_or]
      cases hcatalog : deferredCatalog registry allowedTools with
      | error e =>
        exact iff_of_true (inside_of_error hquery hcatalog)
          (Or.inl (catalog_error_iff.mp ⟨e, hcatalog⟩))
      | ok catalog =>
        have hdrift : ¬ Drifts registry allowedTools := fun h => by
          obtain ⟨e, he⟩ := catalog_error_iff.mpr h
          rw [hcatalog] at he
          cases he
        simp only [hdrift, false_or]
        exact inside_select_iff hquery hselect hcatalog

/-- A name that every object has is loaded. -/
theorem select_constructor : ¬ ∀ (registry : ToolRegistry) (toLowerCase : String → String)
    (localeCompare : String → String → ℤ) (stringify : Json → String) (query : String)
    (allowedTools : List String),
    StaysInside registry toLowerCase localeCompare stringify query (some allowedTools) := by
  intro h
  have hrun : (resolveToolSearch (TOOL_REGISTRY fun _ => ("", .null)) String.toLower
      (fun _ _ => 0) (fun _ => "") "select:constructor" (some ["connectors_pin"])).map
        (·.loaded) = .ok [some "Object"] := by
    decide +kernel
  cases hresult : resolveToolSearch (TOOL_REGISTRY fun _ => ("", .null)) String.toLower
      (fun _ _ => 0) (fun _ => "") "select:constructor" (some ["connectors_pin"]) with
  | error e =>
    rw [hresult] at hrun
    cases hrun
  | ok result =>
    rw [hresult] at hrun
    obtain ⟨names, hnames, -, -, hpermitted, -⟩ := h _ _ _ _ _ _ result hresult
    have hloaded : result.loaded = [some "Object"] := Except.ok.inj hrun
    rw [hloaded] at hnames
    have hmem : "Object" ∈ names := by
      have hsome : some "Object" ∈ names.map some := by
        rw [← hnames]
        exact List.mem_cons_self
      simpa using hsome
    exact absurd (hpermitted "Object" hmem) (by decide +kernel)

end OpenObs.Agent
