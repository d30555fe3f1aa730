import Mathlib.Data.List.DropRight
import Mathlib.Data.List.Infix
import OpenObs.Agent.ReactLoop

/-!
# Messages for an OpenAI endpoint

`llm-gateway/src/providers/openai.ts`: tool uses become calls of the assistant's message, tool
results messages of their own, and the texts of a message are joined.
-/

namespace OpenObs.LlmGateway

open OpenObs.Foundation

/-! ## The boundary marker -/

def SYSTEM_PROMPT_DYNAMIC_BOUNDARY : String := "__OPENOBS_SYSTEM_PROMPT_DYNAMIC_BOUNDARY__"

/-- `part.replace(/^\n+/, '').replace(/\n+$/, '')`. -/
def trimNewlines (part : List Char) : List Char :=
  (part.dropWhile (· = '\n')).rdropWhile (· = '\n')

def stripCacheBoundary (systemText : String) : String :=
  if ¬ SYSTEM_PROMPT_DYNAMIC_BOUNDARY.toList <:+: systemText.toList then systemText
  else
    String.ofList (['\n', '\n'].intercalate
      (((Text.pieces SYSTEM_PROMPT_DYNAMIC_BOUNDARY.toList 0 systemText.toList).map
        trimNewlines).filter (·.length > 0)))

/-! ## The translation -/

namespace OpenAi

inductive MessageRole : Type where
  | system
  | user
  | assistant
  | tool
deriving DecidableEq

structure OpenAIToolCall where
  id : String
  name : String
  arguments : String
deriving DecidableEq

structure OpenAIMessage where
  role : MessageRole
  content : Option String
  toolCalls : Option (List OpenAIToolCall) := none
  reasoningContent : Option String := none
  toolCallId : Option String := none
  name : Option String := none
deriving DecidableEq

def NAME_DELIM : String := "__"

def nameToOpenAi (canonical : String) : String :=
  String.ofList (canonical.toList.flatMap fun c => if c = '.' then NAME_DELIM.toList else [c])

def messageRole : Role → MessageRole
  | .system => .system
  | .user => .user
  | .assistant => .assistant

section Code

-- `JSON.stringify`
variable {Args : Type} (stringify : Args → String)

def toolCalls (blocks : List (ContentBlock Args)) : List OpenAIToolCall :=
  blocks.filterMap fun
    | .toolUse id name input _ => some ⟨id, nameToOpenAi name, stringify input⟩
    | _ => none

def reasoningContent (blocks : List (ContentBlock Args)) : Option String :=
  blocks.foldl (fun reasoning block =>
    match block with
    | .toolUse _ _ _ metadata =>
      if reasoning.getD "" = "" then
        match (Json.field (metadata.getD []) "reasoningContent").bind Json.asString with
        | some text => some text
        | none => reasoning
      else reasoning
    | _ => reasoning) none

def toolMessages (blocks : List (ContentBlock Args)) : List OpenAIMessage :=
  blocks.filterMap fun
    | .toolResult toolUseId toolName content _ => some {
        role := .tool
        toolCallId := some toolUseId
        name := some (nameToOpenAi toolName)
        content := some content }
    | _ => none

def joined (texts : List String) : Option String :=
  if texts.length > 0 then some (Text.join texts '\n') else none

def assistantMessage (blocks : List (ContentBlock Args)) : OpenAIMessage where
  role := .assistant
  content := joined (blockTexts blocks)
  toolCalls := if (toolCalls stringify blocks).length > 0 then some (toolCalls stringify blocks)
    else none
  reasoningContent := (reasoningContent blocks).filter (· ≠ "")

def translateMessage (m : CompletionMessage Args) : List OpenAIMessage :=
  match m.content, m.role with
  | .text text, .system => [{ role := .system, content := some (stripCacheBoundary text) }]
  | .text text, role => [{ role := messageRole role, content := some text }]
  | .blocks blocks, .assistant => [assistantMessage stringify blocks]
  | .blocks blocks, .user => toolMessages blocks ++
      (match joined (blockTexts blocks) with
        | some content => [{ role := .user, content := some content }]
        | none => [])
  | .blocks blocks, .system =>
    [{ role := .system, content := some (stripCacheBoundary (Text.join (blockTexts blocks) '\n')) }]

def translateMessages (messages : List (CompletionMessage Args)) : List OpenAIMessage :=
  messages.flatMap (translateMessage stringify)

end Code

/-! ## What the translation keeps -/

inductive InOrder : List String → String → Prop where
  | nil {content : String} : InOrder [] content
  | cons {gap text content : String} {texts : List String} :
      InOrder texts content → InOrder (text :: texts) (gap ++ text ++ content)

/-- Without the marker the text itself; otherwise its parts between the markers, without the
newlines around them, those that are not empty with an empty line between. -/
def UpToBoundary (text content : String) : Prop :=
  if SYSTEM_PROMPT_DYNAMIC_BOUNDARY.toList <:+: text.toList then
    ∃ parts trimmed : List (List Char),
      text.toList = SYSTEM_PROMPT_DYNAMIC_BOUNDARY.toList.intercalate parts ∧
      List.Forall₂ (fun part piece => ∃ a b,
        part = List.replicate a '\n' ++ piece ++ List.replicate b '\n') parts trimmed ∧
      content.toList = ['\n', '\n'].intercalate (trimmed.filter (·.length > 0))
  else content = text

def Shows (role : Role) (texts : List String) (content : String) : Prop :=
  match role with
  | .system => ∃ text, InOrder texts text ∧ UpToBoundary text content
  | _ => InOrder texts content

section Law

variable {Args : Type} {stringify : Args → String}

def worded (m : CompletionMessage Args) : Bool := m.role = .system ∨ m.texts ≠ []

def spoken (o : OpenAIMessage) : Bool := o.role ≠ .tool ∧ o.content.isSome

structure Translated (stringify : Args → String) (messages : List (CompletionMessage Args))
    (out : List OpenAIMessage) : Prop where
  answered : ∀ before m after, out = before ++ m :: after → ∀ calls, m.toolCalls = some calls →
    m.role = .assistant ∧ ∃ replies rest, after = replies ++ rest ∧
      replies.map (fun r => (r.role, r.toolCallId)) =
        calls.map (fun c => (MessageRole.tool, some c.id)) ∧
      ∀ r ∈ rest.head?, r.role ≠ .tool
  calls : out.flatMap (fun m => m.toolCalls.getD []) =
    (messages.flatMap (·.toolUses)).map fun use => ⟨use.id, nameToOpenAi use.name,
      stringify use.input⟩
  texts : List.Forall₂ (fun m o => o.role = messageRole m.role ∧
      ∃ content, o.content = some content ∧ Shows m.role m.texts content)
    (messages.filter worded) (out.filter spoken)

/-! ### Texts -/

theorem InOrder.gap {texts : List String} {content : String} (h : InOrder texts content)
    (before : String) : InOrder texts (before ++ content) := by
  cases h with
  | nil => exact .nil
  | @cons gap text content texts h =>
    rw [← String.append_assoc, ← String.append_assoc]
    exact .cons h

theorem inOrder_join (texts : List String) : InOrder texts (Text.join texts '\n') := by
  induction texts with
  | nil => exact .nil
  | cons text rest ih =>
    have hone : ∀ {content : String}, InOrder rest content →
        InOrder (text :: rest) (text ++ content) := by
      intro content h
      have hfirst := @InOrder.cons "" text _ _ h
      rw [String.empty_append] at hfirst
      exact hfirst
    cases rest with
    | nil =>
      have halone := hone (@InOrder.nil "")
      rw [String.append_empty] at halone
      rw [Text.join_singleton]
      exact halone
    | cons next rest =>
      rw [Text.join_cons, String.append_assoc]
      exact hone (ih.gap _)

theorem eq_trimNewlines (part : List Char) : ∃ a b,
    part = List.replicate a '\n' ++ trimNewlines part ++ List.replicate b '\n' := by
  have hlead : ∀ l : List Char, l.takeWhile (· = '\n') =
      List.replicate (l.takeWhile (· = '\n')).length '\n' := by
    intro l
    refine List.eq_replicate_of_mem fun c hc => ?_
    exact of_decide_eq_true (List.mem_takeWhile_imp (p := fun c => decide (c = '\n')) hc)
  have hfront := List.takeWhile_append_dropWhile (p := fun c => decide (c = '\n')) (l := part)
  have hback := congrArg List.reverse (List.takeWhile_append_dropWhile
    (p := fun c => decide (c = '\n')) (l := (part.dropWhile (· = '\n')).reverse))
  rw [List.reverse_append, List.reverse_reverse, hlead, List.reverse_replicate] at hback
  refine ⟨(part.takeWhile (· = '\n')).length,
    (((part.dropWhile (· = '\n')).reverse).takeWhile (· = '\n')).length, ?_⟩
  rw [trimNewlines, List.rdropWhile, List.append_assoc, hback, ← hlead, hfront]

theorem stripCacheBoundary_spec (text : String) : UpToBoundary text (stripCacheBoundary text) := by
  unfold UpToBoundary stripCacheBoundary
  by_cases hmarker : SYSTEM_PROMPT_DYNAMIC_BOUNDARY.toList <:+: text.toList
  · rw [if_pos hmarker, if_neg (not_not.mpr hmarker)]
    have hne : SYSTEM_PROMPT_DYNAMIC_BOUNDARY.toList ≠ [] := by decide
    refine ⟨_, _, (Text.intercalate_pieces hne text.toList 0).symm, ?_, String.toList_ofList⟩
    rw [List.forall₂_map_right_iff]
    exact List.forall₂_same.mpr fun part _ => eq_trimNewlines part
  · rw [if_neg hmarker, if_pos hmarker]

theorem inOrder_alone (text : String) : InOrder [text] text := by
  have h := inOrder_join [text]
  rw [Text.join_singleton] at h
  exact h

theorem role_of_mem_toolMessages {blocks : List (ContentBlock Args)} {o : OpenAIMessage}
    (h : o ∈ toolMessages blocks) : o.role = .tool ∧ o.toolCalls = none := by
  obtain ⟨block, -, heq⟩ := List.mem_filterMap.mp h
  cases block <;> cases heq
  exact ⟨rfl, rfl⟩

theorem worded_iff {m : CompletionMessage Args} :
    worded m = true ↔ m.role = .system ∨ m.texts ≠ [] := decide_eq_true_iff

theorem worded_blocks_iff {role : Role} {blocks : List (ContentBlock Args)}
    (h : role ≠ .system) : worded ⟨role, .blocks blocks⟩ = true ↔ (blockTexts blocks).length > 0 := by
  rw [worded_iff, or_iff_right h, gt_iff_lt, List.length_pos_iff]
  rfl

theorem spoken_iff {o : OpenAIMessage} :
    spoken o = true ↔ o.role ≠ .tool ∧ o.content.isSome = true := decide_eq_true_iff

theorem translateMessage_shows (m : CompletionMessage Args) :
    List.Forall₂ (fun m o => o.role = messageRole m.role ∧
      ∃ content, o.content = some content ∧ Shows m.role m.texts content)
      ([m].filter worded) ((translateMessage stringify m).filter spoken) := by
  obtain ⟨role, content⟩ := m
  cases content with
  | text text =>
    cases role with
    | system => exact .cons ⟨rfl, _, rfl, text, inOrder_alone text, stripCacheBoundary_spec text⟩ .nil
    | user => exact .cons ⟨rfl, _, rfl, inOrder_alone text⟩ .nil
    | assistant => exact .cons ⟨rfl, _, rfl, inOrder_alone text⟩ .nil
  | blocks blocks =>
    cases role with
    | system =>
      exact .cons ⟨rfl, _, rfl, _, inOrder_join (blockTexts blocks), stripCacheBoundary_spec _⟩
        .nil
    | user =>
      -- the tool messages in front of the text are not spoken
      have htools : (toolMessages blocks).filter spoken = [] := by
        refine List.filter_eq_nil_iff.mpr fun o ho hspoken => ?_
        exact (spoken_iff.mp hspoken).1 (role_of_mem_toolMessages ho).1
      have horder := inOrder_join (blockTexts blocks)
      rw [translateMessage, List.filter_append, htools, List.nil_append, joined]
      split
      · rename_i content hcontent
        split at hcontent
        · cases hcontent
          rename_i hlen
          rw [List.filter_cons_of_pos ((worded_blocks_iff (by decide)).mpr hlen)]
          exact .cons ⟨rfl, _, rfl, horder⟩ .nil
        · cases hcontent
      · rename_i hnone
        split at hnone
        · cases hnone
        · rename_i hlen
          rw [List.filter_cons_of_neg]
          · exact .nil
          · exact fun hworded => hlen ((worded_blocks_iff (by decide)).mp hworded)
    | assistant =>
      have horder := inOrder_join (blockTexts blocks)
      have hcontent : (assistantMessage stringify blocks).content =
        if (blockTexts blocks).length > 0 then some (Text.join (blockTexts blocks) '\n')
        else none := rfl
      rw [translateMessage]
      by_cases hlen : (blockTexts blocks).length > 0
      · rw [if_pos hlen] at hcontent
        have hspoken : spoken (assistantMessage stringify blocks) = true := by
          rw [spoken_iff, hcontent]
          exact ⟨(nofun : MessageRole.assistant ≠ .tool), rfl⟩
        rw [List.filter_cons_of_pos ((worded_blocks_iff (by decide)).mpr hlen),
          List.filter_cons_of_pos hspoken]
        exact .cons ⟨rfl, _, hcontent, horder⟩ .nil
      · rw [if_neg hlen] at hcontent
        rw [List.filter_cons_of_neg, List.filter_cons_of_neg]
        · exact .nil
        · intro hspoken
          have hsome := (spoken_iff.mp hspoken).2
          rw [hcontent] at hsome
          cases hsome
        · exact fun hworded => hlen ((worded_blocks_iff (by decide)).mp hworded)

theorem translateMessages_shows (messages : List (CompletionMessage Args)) :
    List.Forall₂ (fun m o => o.role = messageRole m.role ∧
      ∃ content, o.content = some content ∧ Shows m.role m.texts content)
      (messages.filter worded) ((translateMessages stringify messages).filter spoken) := by
  induction messages with
  | nil => exact .nil
  | cons m rest ih =>
    rw [← List.singleton_append, List.filter_append, translateMessages, List.flatMap_append,
      List.filter_append, List.flatMap_singleton]
    exact List.rel_append (translateMessage_shows m) ih

/-! ### Calls -/

def callsOf (stringify : Args → String) (uses : List (ToolUse Args)) : List OpenAIToolCall :=
  uses.map fun use => ⟨use.id, nameToOpenAi use.name, stringify use.input⟩

theorem toolCalls_eq (blocks : List (ContentBlock Args)) :
    toolCalls stringify blocks = callsOf stringify (toolUses blocks) := by
  rw [toolCalls, callsOf, toolUses, List.map_filterMap]
  refine List.filterMap_congr fun block _ => ?_
  cases block <;> rfl

theorem translate_assistant (stringify : Args → String) {m : CompletionMessage Args} (h : m.role = .assistant) :
    ∃ o, translateMessage stringify m = [o] ∧ o.role = .assistant ∧
      o.toolCalls = if m.toolUses = [] then none else some (callsOf stringify m.toolUses) := by
  obtain ⟨role, content⟩ := m
  dsimp only at h
  subst h
  cases content with
  | text text => exact ⟨_, rfl, rfl, rfl⟩
  | blocks blocks =>
    refine ⟨_, rfl, rfl, ?_⟩
    show (if (toolCalls stringify blocks).length > 0 then _ else _) =
      if toolUses blocks = [] then none else some (callsOf stringify (toolUses blocks))
    rw [toolCalls_eq]
    cases toolUses blocks with
    | nil => rfl
    | cons use rest => rfl

theorem translate_user (stringify : Args → String) {m : CompletionMessage Args} (h : m.role = .user) :
    ∃ replies texts, translateMessage stringify m = replies ++ texts ∧
      replies.map (fun r => (r.role, r.toolCallId)) =
        m.toolResultIds.map (fun id => (MessageRole.tool, some id)) ∧
      ∀ o ∈ replies ++ texts, o.toolCalls = none ∧ (o ∈ texts → o.role ≠ .tool) := by
  obtain ⟨role, content⟩ := m
  dsimp only at h
  subst h
  cases content with
  | text text =>
    refine ⟨[], _, rfl, rfl, ?_⟩
    intro o ho
    rw [List.mem_singleton.mp ho]
    exact ⟨rfl, fun _ => (nofun : MessageRole.user ≠ .tool)⟩
  | blocks blocks =>
    refine ⟨toolMessages blocks, _, rfl, ?_, ?_⟩
    · show _ = (toolResultIds blocks).map _
      rw [toolMessages, toolResultIds, List.map_filterMap, List.map_filterMap]
      refine List.filterMap_congr fun block _ => ?_
      cases block <;> rfl
    · intro o ho
      rcases List.mem_append.mp ho with hreply | htext
      · refine ⟨(role_of_mem_toolMessages hreply).2, fun htext => ?_⟩
        split at htext
        · rw [List.mem_singleton.mp htext]
          exact (nofun : MessageRole.user ≠ .tool)
        · cases htext
      · split at htext
        · rw [List.mem_singleton.mp htext]
          exact ⟨rfl, fun _ => (nofun : MessageRole.user ≠ .tool)⟩
        · cases htext

theorem translate_system (stringify : Args → String) {m : CompletionMessage Args} (h : m.role = .system) :
    ∃ o, translateMessage stringify m = [o] ∧ o.role = .system ∧ o.toolCalls = none := by
  obtain ⟨role, content⟩ := m
  dsimp only at h
  subst h
  cases content with
  | text text => exact ⟨_, rfl, rfl, rfl⟩
  | blocks blocks => exact ⟨_, rfl, rfl, rfl⟩

def Answered (out : List OpenAIMessage) : Prop :=
  ∀ before m after, out = before ++ m :: after → ∀ calls, m.toolCalls = some calls →
    m.role = .assistant ∧ ∃ replies rest, after = replies ++ rest ∧
      replies.map (fun r => (r.role, r.toolCallId)) =
        calls.map (fun c => (MessageRole.tool, some c.id)) ∧
      ∀ r ∈ rest.head?, r.role ≠ .tool

theorem Answered.cons {o : OpenAIMessage} {out : List OpenAIMessage} (h : Answered out)
    (ho : ∀ calls, o.toolCalls = some calls → o.role = .assistant ∧ ∃ replies rest,
      out = replies ++ rest ∧ replies.map (fun r => (r.role, r.toolCallId)) =
        calls.map (fun c => (MessageRole.tool, some c.id)) ∧
      ∀ r ∈ rest.head?, r.role ≠ .tool) : Answered (o :: out) := by
  intro before m after heq
  cases before with
  | nil =>
    cases heq
    exact ho
  | cons first before =>
    cases heq
    exact h before m after rfl

theorem Answered.append {out : List OpenAIMessage} (h : Answered out)
    (l : List OpenAIMessage) (hl : ∀ o ∈ l, o.toolCalls = none) : Answered (l ++ out) := by
  induction l with
  | nil => exact h
  | cons o rest ih =>
    refine (ih fun o ho => hl o (List.mem_cons_of_mem _ ho)).cons fun calls hcalls => ?_
    rw [hl o List.mem_cons_self] at hcalls
    cases hcalls

theorem head_append {l out : List OpenAIMessage} (h : ∀ r ∈ out.head?, r.role ≠ .tool)
    (hl : ∀ o ∈ l, o.role ≠ .tool) : ∀ r ∈ (l ++ out).head?, r.role ≠ .tool := by
  cases l with
  | nil => exact h
  | cons o rest =>
    rintro r ⟨⟩
    exact hl o List.mem_cons_self

theorem translateMessage_quiet {m : CompletionMessage Args} (huses : m.toolUses = [])
    (hresults : m.role = .user → m.toolResultIds = []) :
    ∀ o ∈ translateMessage stringify m, o.toolCalls = none ∧ o.role ≠ .tool := by
  cases hrole : m.role with
  | system =>
    obtain ⟨o, ho, hsystem, hnone⟩ := translate_system stringify hrole
    rw [ho]
    intro o' ho'
    rw [List.mem_singleton.mp ho']
    exact ⟨hnone, hsystem ▸ nofun⟩
  | user =>
    obtain ⟨replies, texts, ho, hreplies, htexts⟩ :=
      translate_user stringify hrole
    rw [hresults hrole, List.map_nil, List.map_eq_nil_iff] at hreplies
    subst hreplies
    rw [ho]
    exact fun o ho => ⟨(htexts o ho).1, (htexts o ho).2 ho⟩
  | assistant =>
    obtain ⟨o, ho, hassistant, hcalls⟩ := translate_assistant stringify hrole
    rw [if_pos huses] at hcalls
    rw [ho]
    intro o' ho'
    rw [List.mem_singleton.mp ho']
    exact ⟨hcalls, hassistant ▸ nofun⟩

theorem answered_translateMessages {messages : List (CompletionMessage Args)}
    (h : Canonical messages) : Answered (translateMessages stringify messages) ∧
      ∀ r ∈ (translateMessages stringify messages).head?, r.role ≠ .tool := by
  induction h with
  | nil =>
    refine ⟨fun before m after heq => ?_, fun r hr => by cases hr⟩
    cases before <;> cases heq
  | @plain m rest huses hresults hrest ih =>
    obtain ⟨hanswered, hhead⟩ := ih
    rw [translateMessages, List.flatMap_cons, ← translateMessages]
    have hquiet := @translateMessage_quiet _ stringify _ huses hresults
    exact ⟨hanswered.append _ fun o ho => (hquiet o ho).1,
      head_append hhead fun o ho => (hquiet o ho).2⟩
  | @turn m answer rest hm hanswer huses hresults hrest ih =>
    obtain ⟨hanswered, hhead⟩ := ih
    obtain ⟨o, ho, hassistant, hcalls⟩ := translate_assistant stringify hm
    obtain ⟨replies, texts, hboth, hreplies, htexts⟩ :=
      translate_user stringify hanswer
    have hout : translateMessages stringify (m :: answer :: rest) =
        o :: ((replies ++ texts) ++ translateMessages stringify rest) := by
      rw [translateMessages, List.flatMap_cons, List.flatMap_cons, ho, hboth]
      rfl
    rw [hout]
    refine ⟨(hanswered.append _ fun o ho => (htexts o ho).1).cons fun calls heq => ?_, ?_⟩
    · refine ⟨hassistant, replies, texts ++ translateMessages stringify rest,
        List.append_assoc _ _ _, ?_, ?_⟩
      · rw [hcalls] at heq
        split at heq
        · cases heq
        · cases heq
          rw [hreplies, hresults, callsOf, List.map_map, List.map_map]
          rfl
      · exact head_append hhead fun o ho => (htexts o (List.mem_append_right _ ho)).2 ho
    · rintro r ⟨⟩
      exact hassistant ▸ nofun

theorem calls_translateMessage {m : CompletionMessage Args}
    (h : m.role = .assistant ∨ m.toolUses = []) :
    (translateMessage stringify m).flatMap (fun o => o.toolCalls.getD []) =
      callsOf stringify m.toolUses := by
  have hnone : ∀ {l : List OpenAIMessage}, (∀ o ∈ l, o.toolCalls = none) →
      l.flatMap (fun o => o.toolCalls.getD []) = [] := by
    intro l hl
    refine List.flatMap_eq_nil_iff.mpr fun o ho => ?_
    rw [hl o ho]
    rfl
  cases hrole : m.role with
  | system =>
    obtain ⟨o, ho, -, hcalls⟩ := translate_system stringify hrole
    rw [h.resolve_left (by rw [hrole]; exact nofun), ho, hnone]
    · rfl
    · intro o' ho'
      rw [List.mem_singleton.mp ho', hcalls]
  | user =>
    obtain ⟨replies, texts, ho, -, htexts⟩ := translate_user stringify hrole
    rw [h.resolve_left (by rw [hrole]; exact nofun), ho, hnone fun o ho => (htexts o ho).1]
    rfl
  | assistant =>
    obtain ⟨o, ho, -, hcalls⟩ := translate_assistant stringify hrole
    rw [ho, List.flatMap_singleton, hcalls]
    split
    · rename_i hnil
      rw [hnil]
      rfl
    · rfl

theorem calls_translateMessages {messages : List (CompletionMessage Args)}
    (h : Canonical messages) :
    (translateMessages stringify messages).flatMap (fun o => o.toolCalls.getD []) =
      callsOf stringify (messages.flatMap (·.toolUses)) := by
  have hone : ∀ {m : CompletionMessage Args} {rest : List (CompletionMessage Args)},
      m.role = .assistant ∨ m.toolUses = [] →
      (translateMessages stringify rest).flatMap (fun o => o.toolCalls.getD []) =
        callsOf stringify (rest.flatMap (·.toolUses)) →
      (translateMessages stringify (m :: rest)).flatMap (fun o => o.toolCalls.getD []) =
        callsOf stringify ((m :: rest).flatMap (·.toolUses)) := by
    intro m rest hm hrest
    rw [translateMessages, List.flatMap_cons, List.flatMap_append, calls_translateMessage hm,
      ← translateMessages, hrest, List.flatMap_cons, callsOf, callsOf, callsOf, List.map_append]
  induction h with
  | nil => rfl
  | plain huses _ _ ih => exact hone (Or.inr huses) ih
  | turn hm _ huses _ _ ih => exact hone (Or.inl hm) (hone (Or.inr huses) ih)

end Law

/-- **Translation.** A canonical conversation keeps its calls, their answers and its texts. -/
theorem translated_of_canonical {Args : Type} (stringify : Args → String)
    (messages : List (CompletionMessage Args)) (h : Canonical messages) :
    Translated stringify messages (translateMessages stringify messages) :=
  ⟨(answered_translateMessages h).1, calls_translateMessages h, translateMessages_shows messages⟩

/-- A conversation of the loop with two calls in one batch. -/
theorem translated_batch :
    let messages := Agent.ReActLoop.buildMessages none "You are an SRE." "Why is it slow?" [
      { action := "metrics.query", args := [1], result := "42", toolUseId := some "call_1"
        batchId := some 0, preToolText := some "I look at the metrics." },
      { action := "logs.query", args := [2, 3], result := "timeout", toolUseId := some "call_2"
        batchId := some 0 }]
    let stringify := fun args : List ℕ => toString args
    Translated stringify messages (translateMessages stringify messages) :=
  translated_of_canonical _ _ (Agent.ReActLoop.canonical_buildMessages _ _ _
    (Agent.ReActLoop.replayable_of_ids (by decide)))

end OpenAi

end OpenObs.LlmGateway

/-!
# Tool names on the wire

The codec of `providers/openai.ts` and of `providers/gemini.ts`. The way back replaces from the
left, so an underscore right before a dot takes one of the two the dot has become.
-/

namespace OpenObs.LlmGateway.OpenAi

/-- `replace(/__/g, '.')`. -/
def dotted : List Char → List Char
  | '_' :: '_' :: cs => '.' :: dotted cs
  | c :: cs => c :: dotted cs
  | [] => []

def nameFromOpenAi (openai : String) : String := String.ofList (dotted openai.toList)

def nameToGemini (canonical : String) : String := nameToOpenAi canonical

def nameFromGemini (geminiName : String) : String := nameFromOpenAi geminiName

/-! ## The way back -/

def wired (cs : List Char) : List Char :=
  cs.flatMap fun c => if c = '.' then NAME_DELIM.toList else [c]

theorem wired_dot (cs : List Char) : wired ('.' :: cs) = '_' :: '_' :: wired cs := rfl

theorem wired_cons {c : Char} (h : c ≠ '.') (cs : List Char) : wired (c :: cs) = c :: wired cs := by
  rw [wired, List.flatMap_cons, if_neg h]
  rfl

theorem dotted_cons {c : Char} (h : c ≠ '_') (cs : List Char) :
    dotted (c :: cs) = c :: dotted cs := by
  rw [dotted]
  exact fun _ heq => absurd heq h

theorem dotted_single {c : Char} (h : c ≠ '_') (cs : List Char) :
    dotted ('_' :: c :: cs) = '_' :: dotted (c :: cs) := by
  rw [dotted]
  rintro cs' - heq
  exact h (List.cons.inj heq).1

theorem pair_infix_cons {a b c : Char} {cs : List Char} :
    [a, b] <:+: c :: cs ↔ (c = a ∧ cs.head? = some b) ∨ [a, b] <:+: cs := by
  rw [List.infix_cons_iff, List.cons_prefix_cons]
  refine or_congr_left (and_congr eq_comm ?_)
  cases cs with
  | nil => simp
  | cons d cs => simp [List.cons_prefix_cons, eq_comm]

theorem dotted_wired : ∀ {cs : List Char}, ¬ ['_', '_'] <:+: cs →
    (dotted (wired cs) = cs ↔ ¬ ['_', '.'] <:+: cs)
  | [], _ => by simp [wired, dotted]
  | c :: cs, h => by
    rw [pair_infix_cons, not_or] at h
    rw [pair_infix_cons, not_or]
    by_cases hdot : c = '.'
    · subst hdot
      rw [wired_dot, dotted, List.cons_inj_right, dotted_wired h.2]
      simp
    · by_cases hunder : c = '_'
      · subst hunder
        rw [wired_cons hdot]
        cases cs with
        | nil => simp [wired, dotted]
        | cons d cs =>
          by_cases hd : d = '.'
          · subst hd
            rw [wired_dot, dotted]
            simp
          · have hd' : d ≠ '_' := fun heq => h.1 ⟨rfl, by rw [heq]; rfl⟩
            rw [wired_cons hd, dotted_single hd', List.cons_inj_right, ← wired_cons hd,
              dotted_wired h.2]
            simp [hd]
      · rw [wired_cons hdot, dotted_cons hunder, List.cons_inj_right, dotted_wired h.2]
        simp [hunder]

theorem nameFromOpenAi_nameToOpenAi (n : String) :
    nameFromOpenAi (nameToOpenAi n) = String.ofList (dotted (wired n.toList)) := by
  rw [nameFromOpenAi, nameToOpenAi, String.toList_ofList]
  rfl

/-- **A tool name comes back** as it was just where no underscore stands before a dot; two such
names have two names on the wire. -/
theorem tool_name_returns (n : String) (h : ¬ ['_', '_'] <:+: n.toList) :
    (nameFromOpenAi (nameToOpenAi n) = n ↔ ¬ ['_', '.'] <:+: n.toList) ∧
    (nameFromGemini (nameToGemini n) = n ↔ ¬ ['_', '.'] <:+: n.toList) ∧
    ∀ m : String, ¬ ['_', '_'] <:+: m.toList → ¬ ['_', '.'] <:+: n.toList →
      ¬ ['_', '.'] <:+: m.toList → nameToOpenAi n = nameToOpenAi m → n = m := by
  have hback : ∀ m : String, ¬ ['_', '_'] <:+: m.toList →
      (nameFromOpenAi (nameToOpenAi m) = m ↔ ¬ ['_', '.'] <:+: m.toList) := by
    intro m hm
    rw [nameFromOpenAi_nameToOpenAi, ← dotted_wired hm]
    constructor
    · intro heq
      rw [← String.toList_inj, String.toList_ofList] at heq
      exact heq
    · intro heq
      rw [heq, String.ofList_toList]
  refine ⟨hback n h, hback n h, fun m hm hn hm' heq => ?_⟩
  calc n = nameFromOpenAi (nameToOpenAi n) := ((hback n h).mpr hn).symm
    _ = nameFromOpenAi (nameToOpenAi m) := by rw [heq]
    _ = m := (hback m hm).mpr hm'

theorem tool_name_returns_query :
    nameFromOpenAi (nameToOpenAi "metrics.metric_names") = "metrics.metric_names" :=
  (tool_name_returns "metrics.metric_names" (by decide +kernel)).1.mpr (by decide +kernel)

/-- Two tools under one name. -/
theorem underscore_before_dot :
    ¬ ∀ n : String, ¬ ['_', '_'] <:+: n.toList → nameFromOpenAi (nameToOpenAi n) = n := by
  intro h
  exact absurd (h "a_.b" (by decide +kernel)) (by decide +kernel)

end OpenObs.LlmGateway.OpenAi
