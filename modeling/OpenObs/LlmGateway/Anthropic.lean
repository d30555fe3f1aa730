import OpenObs.Agent.Replay
import OpenObs.LlmGateway.OpenAi

/-!
# Anthropic

`llm-gateway/src/providers/anthropic.ts` and its part of `capabilities.ts`: the body of a request,
whose fields an endpoint refuses where the model does not have them, and the tool calls of an
answer. How a model's name is put into lower case is a parameter.
-/

namespace OpenObs.LlmGateway.Anthropic

open OpenObs.Foundation OpenObs.Agent OpenObs.Agent.ReActLoop

/-! ## Capabilities -/

def families : List (List Char) := ["opus".toList, "sonnet".toList, "haiku".toList]

/-- `/claude-(opus|sonnet|haiku)-…/`, with the version behind it. -/
def claude (version : List Char → Bool) (name : List Char) : Bool :=
  name.tails.any fun t => families.any fun family =>
    let lead := "claude-".toList ++ family ++ ['-']
    lead.isPrefixOf t && version (t.drop lead.length)

/-- `([lo-9]|\d{2,})`. -/
def atLeast (lo : Char) : List Char → Bool
  | [] => false
  | c :: cs => (lo ≤ c ∧ c ≤ '9') ∨ (c.isDigit = true ∧ cs.head?.any Char.isDigit = true)

/-- `4-([7-9]|\d{2,})`. -/
def minor : List Char → Bool
  | '4' :: '-' :: cs => atLeast '7' cs
  | _ => false

def canonicalizeAnthropicModel (toLowerCase : String → String) (model : String) : List Char :=
  let name := (toLowerCase model).toList
  if "arn:".toList <+: name then name.rtakeWhile (· ≠ '/') else name

def anthropicSupportsThinking (name : List Char) : Bool :=
  "claude-3-7-".toList <:+: name ∨ claude (atLeast '4') name = true

def anthropicSupportsAdaptiveThinking (name : List Char) : Bool :=
  "claude-opus-4-7".toList <:+: name ∨ "claude-opus-4-6".toList <:+: name ∨
    "claude-sonnet-4-6".toList <:+: name ∨ claude minor name = true ∨
    claude (atLeast '5') name = true

def anthropicSamplingParams (name : List Char) : Bool :=
  ¬ (claude minor name = true ∨ claude (atLeast '5') name = true)

inductive Effort : Type where
  | low
  | medium
  | high
deriving DecidableEq

def effortToBudgetTokens : Effort → ℕ
  | .low => 1024
  | .medium => 4096
  | .high => 16384

/-! ## The system prompt -/

/-- What is before the first occurrence of the marker, and what is behind it. -/
def cut (marker : List Char) : List Char → Option (List Char × List Char)
  | [] => if marker = [] then some ([], []) else none
  | c :: cs =>
    if marker <+: c :: cs then some ([], (c :: cs).drop marker.length)
    else (cut marker cs).map fun p => (c :: p.1, p.2)

inductive SystemField : Type where
  | text (text : String)
  | blocks (staticPart : String) (dynamicPart : Option String)

def SystemField.texts : SystemField → List String
  | .text systemText => [systemText]
  | .blocks staticPart dynamicPart => staticPart :: dynamicPart.toList

def buildSystemField (systemText : String) : SystemField :=
  match cut SYSTEM_PROMPT_DYNAMIC_BOUNDARY.toList systemText.toList with
  | none => .text systemText
  | some (before, behind) =>
    let dynamicPart := behind.dropWhile (· = '\n')
    .blocks (String.ofList (before.rdropWhile (· = '\n')))
      (if dynamicPart.length > 0 then some (String.ofList dynamicPart) else none)

/-! ## Messages -/

inductive AnthropicWireBlock : Type where
  | text (text : String)
  | toolUse (id name : String) (input : Json.Record)
  | toolResult (toolUseId content : String) (isError : Option Bool)

inductive AnthropicWireContent : Type where
  | text (text : String)
  | blocks (blocks : List AnthropicWireBlock)

structure AnthropicWireMessage where
  role : Role
  content : AnthropicWireContent

def toAnthropicWireBlock : ContentBlock Json.Record → AnthropicWireBlock
  | .text text => .text text
  | .toolUse id name input _ => .toolUse id name input
  | .toolResult toolUseId _ content isError => .toolResult toolUseId content isError

def toAnthropicWireMessage (m : CompletionMessage Json.Record) :
    Except String AnthropicWireMessage :=
  if m.role ≠ .user ∧ m.role ≠ .assistant then
    .error "toAnthropicWireMessage: unexpected role \"system\""
  else
    match m.content with
    | .text text => .ok ⟨m.role, .text text⟩
    | .blocks blocks => .ok ⟨m.role, .blocks (blocks.map toAnthropicWireBlock)⟩

def flattenContent (c : Content Json.Record) : String :=
  match c with
  | .text text => text
  | .blocks blocks => Text.join (blockTexts blocks) '\n'

/-! ## The body -/

inductive ToolChoice : Type where
  | auto
  | any
  | tool (name : String)

structure LLMOptions (Tool : Type) where
  model : Option String := none
  maxTokens : Option ℕ := none
  temperature : Option Rat := none
  tools : List Tool := []
  toolChoice : Option ToolChoice := none
  thinking : Option Effort := none

inductive Thinking : Type where
  | adaptive
  | enabled (budgetTokens : ℕ)

structure RequestBody (Tool : Type) where
  model : Option String
  system : Option SystemField
  messages : List AnthropicWireMessage
  maxTokens : ℕ
  temperature : Option Rat
  tools : Option (List Tool) := none
  toolChoice : Option ToolChoice := none
  thinking : Option Thinking := none
  outputConfig : Option Effort := none
  anthropicVersion : Option String := none

inductive AnthropicEndpointFlavor : Type where
  | native
  | bedrock

def DEFAULT_MAX_TOKENS : ℕ := 4096

section Code

variable {Tool : Type} (toLowerCase : String → String)

def canonical (options : LLMOptions Tool) : List Char :=
  canonicalizeAnthropicModel toLowerCase (options.model.getD "")

def pickSamplingParams (options : LLMOptions Tool) : Option Rat :=
  if anthropicSamplingParams (canonical toLowerCase options) then options.temperature else none

def withTools (options : LLMOptions Tool) (body : RequestBody Tool) : RequestBody Tool :=
  if options.tools.length > 0 then
    { body with tools := some options.tools, toolChoice := options.toolChoice }
  else body

def withThinking (options : LLMOptions Tool) (body : RequestBody Tool) : RequestBody Tool :=
  match options.thinking with
  | none => body
  | some effort =>
    if ¬ anthropicSupportsThinking (canonical toLowerCase options) then body
    else if anthropicSupportsAdaptiveThinking (canonical toLowerCase options) then
      { body with thinking := some .adaptive, outputConfig := some effort }
    else
      let budget := effortToBudgetTokens effort
      { body with
        thinking := some (.enabled budget)
        temperature :=
          if anthropicSamplingParams (canonical toLowerCase options) then some 1 else none
        maxTokens :=
          if body.maxTokens ≤ budget then budget + DEFAULT_MAX_TOKENS else body.maxTokens }

def withFlavor : AnthropicEndpointFlavor → RequestBody Tool → RequestBody Tool
  | .bedrock, body => { body with anthropicVersion := some "bedrock-2023-05-31", model := none }
  | .native, body => body

def baseBody (messages : List (CompletionMessage Json.Record)) (wire : List AnthropicWireMessage)
    (options : LLMOptions Tool) : RequestBody Tool :=
  let systemParts := messages.filter (·.role = .system)
  { model := options.model
    system :=
      if systemParts.length > 0 then
        some (buildSystemField (Text.join (systemParts.map fun m => flattenContent m.content) '\n'))
      else none
    messages := wire
    maxTokens := options.maxTokens.getD DEFAULT_MAX_TOKENS
    temperature := pickSamplingParams toLowerCase options }

def requestBody (endpointFlavor : AnthropicEndpointFlavor)
    (messages : List (CompletionMessage Json.Record)) (options : LLMOptions Tool) :
    Except String (RequestBody Tool) := do
  let wire ← (messages.filter (·.role ≠ .system)).mapM toAnthropicWireMessage
  return withFlavor endpointFlavor (withThinking toLowerCase options
    (withTools options (baseBody toLowerCase messages wire options)))

end Code

/-! ## An answer -/

structure AnthropicContentBlock where
  type : String
  text : Option String := none
  id : Option String := none
  name : Option String := none
  input : Option Json.Record := none
  thinking : Option String := none

structure Parsed where
  textPieces : List String := []
  toolCalls : List ReActLoop.ToolCall := []
  thinkingBlocks : List String := []

def toolUseOf (block : AnthropicContentBlock) : Option ReActLoop.ToolCall :=
  match block.id, block.name with
  | some id, some name =>
    if block.type = "tool_use" then some { id, name, input := block.input.getD [] } else none
  | _, _ => none

def parseBlock (r : Parsed) (block : AnthropicContentBlock) : Parsed :=
  match (if block.type = "text" then block.text else none), toolUseOf block with
  | some text, _ => { r with textPieces := r.textPieces ++ [text] }
  | none, some tc => { r with toolCalls := r.toolCalls ++ [tc] }
  | none, none =>
    match (if block.type = "thinking" then block.thinking else none) with
    | some thinking => { r with thinkingBlocks := r.thinkingBlocks ++ [thinking] }
    | none => r

def response (content : List AnthropicContentBlock) : Response :=
  let r := content.foldl parseBlock {}
  ⟨"\n".intercalate r.textPieces, r.toolCalls, r.thinkingBlocks⟩

/-! ## Requests that are not refused -/

structure Accepted {Tool : Type} (name : List Char) (options : LLMOptions Tool)
    (body : RequestBody Tool) : Prop where
  budget : ∀ b, body.thinking = some (.enabled b) → b < body.maxTokens ∧
    body.temperature = some 1 ∧ body.outputConfig = none ∧
    anthropicSupportsAdaptiveThinking name = false
  adaptive : body.thinking = some .adaptive → body.outputConfig = options.thinking ∧
    anthropicSupportsAdaptiveThinking name = true
  effort : body.outputConfig.isSome = true → body.thinking = some .adaptive
  asked : ∀ effort, options.thinking = some effort →
    anthropicSupportsAdaptiveThinking name = true →
    body.thinking = some .adaptive ∧ body.outputConfig = some effort
  thinks : body.thinking.isSome = true → anthropicSupportsThinking name = true
  sampled : body.temperature.isSome = true → anthropicSamplingParams name = true
  tooled : body.toolChoice.isSome = true → body.tools.isSome = true

section Body

variable {Tool : Type} {name : List Char} {options : LLMOptions Tool} {body : RequestBody Tool}
  {version version' : List Char → Bool}

theorem claude_mono (h : ∀ cs, version cs = true → version' cs = true)
    (hname : claude version name = true) : claude version' name = true := by
  simp only [claude, List.any_eq_true, Bool.and_eq_true] at hname ⊢
  obtain ⟨t, ht, family, hfamily, hlead, hversion⟩ := hname
  exact ⟨t, ht, family, hfamily, hlead, h _ hversion⟩

theorem claude_of_infix (family rest : List Char) {whole : List Char} (hfamily : family ∈ families)
    (hwhole : "claude-".toList ++ family ++ ['-'] ++ rest = whole)
    (hversion : ∀ post, version (rest ++ post) = true) (h : whole <:+: name) :
    claude version name = true := by
  subst hwhole
  obtain ⟨before, post, rfl⟩ := h
  simp only [claude, List.any_eq_true, Bool.and_eq_true]
  refine ⟨"claude-".toList ++ family ++ ['-'] ++ rest ++ post, ?_, family, hfamily, ?_, ?_⟩
  · rw [List.mem_tails, List.append_assoc before]
    exact List.suffix_append _ _
  · refine List.isPrefixOf_iff_prefix.mpr ?_
    rw [List.append_assoc _ rest]
    exact List.prefix_append _ _
  · rw [List.append_assoc _ rest, List.drop_left]
    exact hversion post

theorem atLeast_mono {lo lo' : Char} (h : lo ≤ lo') :
    ∀ cs, atLeast lo' cs = true → atLeast lo cs = true
  | c :: cs, hc => by
    simp only [atLeast, decide_eq_true_eq] at hc ⊢
    exact hc.imp_left fun ⟨hlo, hnine⟩ => ⟨Char.le_trans h hlo, hnine⟩

theorem atLeast_of_minor : ∀ cs, minor cs = true → atLeast '4' cs = true := by
  intro cs h
  unfold minor at h
  split at h
  · rfl
  · cases h

theorem thinks_iff : anthropicSupportsThinking name = true ↔
    "claude-3-7-".toList <:+: name ∨ claude (atLeast '4') name = true := decide_eq_true_iff

theorem adaptive_iff : anthropicSupportsAdaptiveThinking name = true ↔
    "claude-opus-4-7".toList <:+: name ∨ "claude-opus-4-6".toList <:+: name ∨
      "claude-sonnet-4-6".toList <:+: name ∨ claude minor name = true ∨
      claude (atLeast '5') name = true := decide_eq_true_iff

theorem thinks_of_adaptive (h : anthropicSupportsAdaptiveThinking name = true) :
    anthropicSupportsThinking name = true := by
  rw [adaptive_iff] at h
  refine thinks_iff.mpr (Or.inr ?_)
  rcases h with h | h | h | h | h
  · exact claude_of_infix "opus".toList "4-7".toList (by decide) (by decide) (fun _ => rfl) h
  · exact claude_of_infix "opus".toList "4-6".toList (by decide) (by decide) (fun _ => rfl) h
  · exact claude_of_infix "sonnet".toList "4-6".toList (by decide) (by decide) (fun _ => rfl) h
  · exact claude_mono atLeast_of_minor h
  · exact claude_mono (atLeast_mono (by decide)) h

theorem samples_of_budget (h : anthropicSupportsAdaptiveThinking name = false) :
    anthropicSamplingParams name = true := by
  rw [← Bool.not_eq_true, adaptive_iff] at h
  refine decide_eq_true fun hnew => ?_
  apply h
  exact Or.inr (Or.inr (Or.inr hnew))

structure Plain (name : List Char) (body : RequestBody Tool) : Prop where
  thinking : body.thinking = none
  effort : body.outputConfig = none
  sampled : body.temperature.isSome = true → anthropicSamplingParams name = true
  tooled : body.toolChoice.isSome = true → body.tools.isSome = true

theorem Plain.withTools (h : Plain name body) (options : LLMOptions Tool) :
    Plain name (withTools options body) := by
  unfold Anthropic.withTools
  split
  · exact ⟨h.thinking, h.effort, h.sampled, fun _ => rfl⟩
  · exact ⟨h.thinking, h.effort, h.sampled, h.tooled⟩

theorem Plain.accepted (h : Plain name body)
    (hasked : options.thinking = none ∨ anthropicSupportsThinking name = false) :
    Accepted name options body where
  budget b hb := by
    rw [h.thinking] at hb
    cases hb
  adaptive hb := by
    rw [h.thinking] at hb
    cases hb
  effort hb := by
    rw [h.effort] at hb
    cases hb
  asked effort heffort hadaptive := by
    rcases hasked with hnone | hnot
    · rw [hnone] at heffort
      cases heffort
    · rw [thinks_of_adaptive hadaptive] at hnot
      cases hnot
  thinks hb := by
    rw [h.thinking] at hb
    cases hb
  sampled := h.sampled
  tooled := h.tooled

theorem accepted_withThinking {toLowerCase : String → String}
    (h : Plain (canonical toLowerCase options) body) :
    Accepted (canonical toLowerCase options) options (withThinking toLowerCase options body) := by
  unfold withThinking
  split
  next hnone => exact h.accepted (Or.inl hnone)
  next effort heffort =>
    split
    next hnot => exact h.accepted (Or.inr (by simpa using hnot))
    next hthinks =>
      rw [not_not] at hthinks
      split
      next hadaptive =>
        exact ⟨nofun, fun _ => ⟨heffort.symm, hadaptive⟩, fun _ => rfl,
          fun _ heffort' _ => ⟨rfl, heffort.symm.trans heffort'⟩, fun _ => hthinks, h.sampled,
          h.tooled⟩
      next hbudget =>
        rw [Bool.not_eq_true] at hbudget
        have hsamples := samples_of_budget hbudget
        refine ⟨?_, nofun, ?_, fun _ _ hadaptive => ?_, fun _ => hthinks, fun _ => hsamples,
          h.tooled⟩
        · rintro b ⟨⟩
          refine ⟨?_, if_pos hsamples, h.effort, hbudget⟩
          dsimp only
          split
          · exact Nat.lt_add_of_pos_right (by decide)
          · omega
        · intro hsome
          dsimp only at hsome
          rw [h.effort] at hsome
          cases hsome
        · rw [hbudget] at hadaptive
          cases hadaptive

theorem accepted_withFlavor (flavor : AnthropicEndpointFlavor) (h : Accepted name options body) :
    Accepted name options (withFlavor flavor body) := by
  cases flavor
  · exact h
  · exact ⟨h.budget, h.adaptive, h.effort, h.asked, h.thinks, h.sampled, h.tooled⟩

theorem messages_with {toLowerCase : String → String} (flavor : AnthropicEndpointFlavor) :
    (withFlavor flavor (withThinking toLowerCase options (withTools options body))).messages =
      body.messages := by
  have htools : (withTools options body).messages = body.messages := by
    unfold withTools
    split <;> rfl
  have hthinking : (withThinking toLowerCase options (withTools options body)).messages =
      body.messages := by
    unfold withThinking
    split
    · exact htools
    · split
      · exact htools
      · split <;> exact htools
  cases flavor <;> exact hthinking

end Body

/-! ## Messages on the wire -/

def wireMessage (m : CompletionMessage Json.Record) : AnthropicWireMessage where
  role := m.role
  content :=
    match m.content with
    | .text text => .text text
    | .blocks blocks => .blocks (blocks.map toAnthropicWireBlock)

def wireMessages (messages : List (CompletionMessage Json.Record)) : List AnthropicWireMessage :=
  (messages.filter (·.role ≠ .system)).map wireMessage

theorem toAnthropicWireMessage_ok {m : CompletionMessage Json.Record} (h : m.role ≠ .system) :
    toAnthropicWireMessage m = .ok (wireMessage m) := by
  obtain ⟨role, content⟩ := m
  cases role with
  | system => exact absurd rfl h
  | user => cases content <;> rfl
  | assistant => cases content <;> rfl

theorem mapM_wire (messages : List (CompletionMessage Json.Record)) :
    (messages.filter (·.role ≠ .system)).mapM toAnthropicWireMessage =
      .ok (wireMessages messages) := by
  have hroles : ∀ m ∈ messages.filter (·.role ≠ .system), m.role ≠ .system := by
    simp only [List.mem_filter, decide_eq_true_eq]
    exact fun m hm => hm.2
  unfold wireMessages
  generalize messages.filter (·.role ≠ .system) = spoken at hroles ⊢
  induction spoken with
  | nil => rfl
  | cons m rest ih =>
    rw [List.mapM_cons, toAnthropicWireMessage_ok (hroles m List.mem_cons_self),
      ih fun m hm => hroles m (List.mem_cons_of_mem _ hm)]
    rfl

/-- **Every request goes through with its model.** Whatever is asked of whichever model, there is a
body, and its fields go together. -/
theorem request_accepted {Tool : Type} (toLowerCase : String → String)
    (endpointFlavor : AnthropicEndpointFlavor) (messages : List (CompletionMessage Json.Record))
    (options : LLMOptions Tool) :
    ∃ body, requestBody toLowerCase endpointFlavor messages options = .ok body ∧
      body.messages = wireMessages messages ∧
      Accepted (canonical toLowerCase options) options body := by
  have hplain : Plain (canonical toLowerCase options)
      (baseBody toLowerCase messages (wireMessages messages) options) := by
    refine ⟨rfl, rfl, fun hsome => ?_, nofun⟩
    dsimp only [baseBody, pickSamplingParams] at hsome
    split at hsome
    · assumption
    · cases hsome
  refine ⟨_, ?_, ?_, accepted_withFlavor endpointFlavor
    (accepted_withThinking (hplain.withTools options))⟩
  · rw [requestBody, mapM_wire]
    rfl
  · rw [messages_with]
    rfl

/-! ## The marker in the system prompt -/

section Boundary

variable {marker cs before behind : List Char}

theorem cut_spec : ∀ {cs before behind : List Char}, cut marker cs = some (before, behind) →
    cs = before ++ marker ++ behind ∧
      ∀ before' behind', cs = before' ++ marker ++ behind' → before.length ≤ before'.length
  | [], before, behind, h => by
    unfold cut at h
    split at h
    next hmarker =>
      cases h
      exact ⟨by simp [hmarker], fun _ _ _ => Nat.zero_le _⟩
    · cases h
  | c :: cs, before, behind, h => by
    unfold cut at h
    split at h
    next hprefix =>
      cases h
      refine ⟨?_, fun _ _ _ => Nat.zero_le _⟩
      rw [List.nil_append]
      exact (List.prefix_iff_eq_append.mp hprefix).symm
    next hnot =>
      obtain ⟨⟨a, b⟩, hcut, heq⟩ := Option.map_eq_some_iff.mp h
      cases heq
      obtain ⟨hcs, hfirst⟩ := cut_spec hcut
      refine ⟨by rw [hcs]; rfl, fun before' behind' heq => ?_⟩
      cases before' with
      | nil =>
        -- the marker does not stand at the very front
        rw [List.nil_append] at heq
        exact absurd ⟨behind', heq.symm⟩ hnot
      | cons d before' =>
        exact Nat.succ_le_succ (hfirst before' behind' (List.cons.inj heq).2)

theorem cut_eq_none (hne : marker ≠ []) : ∀ {cs : List Char}, cut marker cs = none →
    ¬ marker <:+: cs
  | [], _, h => hne (List.infix_nil.mp h)
  | c :: cs, hcut, h => by
    unfold cut at hcut
    split at hcut
    · cases hcut
    next hnot =>
      rcases List.infix_cons_iff.mp h with h | h
      · exact hnot h
      · exact cut_eq_none hne (Option.map_eq_none_iff.mp hcut) h

theorem infix_dropWhile {d : Char} {word : List Char} (hd : d ≠ '\n') : ∀ {cs : List Char},
    d :: word <:+: cs.dropWhile (· = '\n') ↔ d :: word <:+: cs
  | [] => Iff.rfl
  | c :: cs => by
    rw [List.dropWhile_cons]
    by_cases hc : c = '\n'
    · rw [if_pos (decide_eq_true hc), infix_dropWhile hd, List.infix_cons_iff,
        List.cons_prefix_cons]
      exact ⟨Or.inr, fun h => h.resolve_left fun heq => hd (heq.1.trans hc)⟩
    · rw [if_neg (by simpa using hc)]

theorem marker_eq : ∃ word, SYSTEM_PROMPT_DYNAMIC_BOUNDARY.toList = '_' :: word := ⟨_, rfl⟩

/-- **The marker is stripped where it occurs once.** It reaches the model exactly when it occurs
twice, one after the other: only the first one is cut out. -/
theorem boundary_stripped_iff (systemText : String) :
    (∀ t ∈ (buildSystemField systemText).texts,
      ¬ SYSTEM_PROMPT_DYNAMIC_BOUNDARY.toList <:+: t.toList) ↔
    ¬ ∃ a b c, systemText.toList = a ++ SYSTEM_PROMPT_DYNAMIC_BOUNDARY.toList ++ b ++
      SYSTEM_PROMPT_DYNAMIC_BOUNDARY.toList ++ c := by
  obtain ⟨word, hword⟩ := marker_eq
  unfold buildSystemField
  generalize SYSTEM_PROMPT_DYNAMIC_BOUNDARY.toList = marker at hword ⊢
  cases hcut : cut marker systemText.toList with
  | none =>
    have hnot := cut_eq_none (by rw [hword]; exact List.cons_ne_nil _ _) hcut
    refine iff_of_true (fun t ht => ?_) ?_
    · rw [List.mem_singleton.mp ht]
      exact hnot
    · rintro ⟨a, b, c, heq⟩
      exact hnot ⟨a ++ marker ++ b, c, heq.symm⟩
  | some p =>
    obtain ⟨before, behind⟩ := p
    obtain ⟨hall, hfirst⟩ := cut_spec hcut
    have hstatic : ¬ marker <:+: before.rdropWhile (· = '\n') := by
      intro h
      have hfront := List.rdropWhile_prefix (· = '\n') (l := before)
      obtain ⟨a, b, heq⟩ := h.trans hfront.isInfix
      have hlen := hfirst a (b ++ marker ++ behind) (by rw [hall, ← heq]; simp)
      rw [← heq, hword] at hlen
      simp only [List.length_append, List.length_cons] at hlen
      omega
    have hdynamic : marker <:+: behind.dropWhile (· = '\n') ↔ marker <:+: behind := by
      rw [hword]
      exact infix_dropWhile (by decide)
    have htexts : (∀ t ∈ (SystemField.blocks (String.ofList (before.rdropWhile (· = '\n')))
        (if (behind.dropWhile (· = '\n')).length > 0 then
          some (String.ofList (behind.dropWhile (· = '\n'))) else none)).texts,
        ¬ marker <:+: t.toList) ↔ ¬ marker <:+: behind := by
      rw [← hdynamic, SystemField.texts, List.forall_mem_cons, String.toList_ofList,
        and_iff_right hstatic]
      split
      · simp
      next hempty =>
        rw [gt_iff_lt, List.length_pos_iff, not_not] at hempty
        simp [hempty, hword]
    refine htexts.trans (not_congr ⟨?_, ?_⟩)
    · rintro ⟨b, c, heq⟩
      exact ⟨before, b, c, by rw [hall, ← heq]; simp⟩
    · rintro ⟨a, b, c, heq⟩
      -- the second occurrence lies behind the first cut
      have hle := hfirst a (b ++ marker ++ c) (by rw [heq]; simp)
      have hdrop := congrArg (List.drop (before.length + marker.length)) (hall.symm.trans heq)
      rw [← List.length_append, List.drop_left] at hdrop
      rw [hdrop, List.append_assoc (a ++ marker ++ b), List.drop_append_of_le_length]
      · exact List.infix_append' _ _ _
      · simp only [List.length_append]
        omega

end Boundary

/-! ## What goes back -/

def isWireToolUse : AnthropicWireBlock → Bool
  | .toolUse .. => true
  | _ => false

def AnthropicWireBlock.answers : AnthropicWireBlock → Option String
  | .toolResult toolUseId _ _ => some toolUseId
  | _ => none

def AnthropicWireMessage.blocks (m : AnthropicWireMessage) : List AnthropicWireBlock :=
  match m.content with
  | .text _ => []
  | .blocks blocks => blocks

def wireCall (tc : ReActLoop.ToolCall) : AnthropicWireBlock := .toolUse tc.id tc.name tc.input

/-- A message with the tool uses of this content, and one with a result for each. -/
structure Returned (content : List AnthropicContentBlock) (m answer : AnthropicWireMessage) :
    Prop where
  role : m.role = .assistant
  uses : m.blocks.filter isWireToolUse = (content.filterMap toolUseOf).map wireCall
  answers : answer.role = .user
  results : answer.blocks.map AnthropicWireBlock.answers =
    (content.filterMap toolUseOf).map fun tc => some tc.id

/-- The last request, on the wire: messages of text, and what every answer has called. -/
def Returns (contents : List (List AnthropicContentBlock)) (s : Run) : Prop :=
  ∃ messages opening rounds, s.before.getLast? = some (.complete messages) ∧
    wireMessages messages = opening ++ rounds ∧
    (∀ m ∈ opening, m.blocks = []) ∧ InRounds Returned contents rounds

section Law

variable {content : List AnthropicContentBlock} {tcs : List ReActLoop.ToolCall}

end Law

end OpenObs.LlmGateway.Anthropic
