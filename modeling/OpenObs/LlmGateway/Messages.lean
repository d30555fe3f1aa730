import OpenObs.Foundation.Json

/-!
# Completion messages

`llm-gateway/src/types.ts`: a message is a text or a list of content blocks, and a tool use
is answered by the tool result with its id. The arguments of a tool are opaque here.
-/

namespace OpenObs.LlmGateway

open OpenObs.Foundation

inductive Role : Type where
  | system
  | user
  | assistant
deriving DecidableEq

inductive ContentBlock (Args : Type) : Type where
  | text (text : String)
  | toolUse (id name : String) (input : Args) (providerMetadata : Option Json.Record)
  | toolResult (toolUseId toolName content : String) (isError : Option Bool)

inductive Content (Args : Type) : Type where
  | text (text : String)
  | blocks (blocks : List (ContentBlock Args))

structure CompletionMessage (Args : Type) where
  role : Role
  content : Content Args

structure ToolUse (Args : Type) where
  id : String
  name : String
  input : Args
deriving DecidableEq

section Blocks

variable {Args : Type}

def toolUses (blocks : List (ContentBlock Args)) : List (ToolUse Args) :=
  blocks.filterMap fun
    | .toolUse id name input _ => some ⟨id, name, input⟩
    | _ => none

def toolResultIds (blocks : List (ContentBlock Args)) : List String :=
  blocks.filterMap fun
    | .toolResult toolUseId _ _ _ => some toolUseId
    | _ => none

def blockTexts (blocks : List (ContentBlock Args)) : List String :=
  blocks.filterMap fun
    | .text text => some text
    | _ => none

def CompletionMessage.blocks (m : CompletionMessage Args) : List (ContentBlock Args) :=
  match m.content with
  | .text _ => []
  | .blocks blocks => blocks

def CompletionMessage.texts (m : CompletionMessage Args) : List String :=
  match m.content with
  | .text text => [text]
  | .blocks blocks => blockTexts blocks

def CompletionMessage.toolUses (m : CompletionMessage Args) : List (ToolUse Args) :=
  LlmGateway.toolUses m.blocks

def CompletionMessage.toolResultIds (m : CompletionMessage Args) : List String :=
  LlmGateway.toolResultIds m.blocks

/-- The tool results of a user turn answer the tool uses of the assistant turn right before it, and
tool uses and tool results stand nowhere else. -/
inductive Canonical : List (CompletionMessage Args) → Prop where
  | nil : Canonical []
  | plain {m : CompletionMessage Args} {rest : List (CompletionMessage Args)} :
      m.toolUses = [] → (m.role = .user → m.toolResultIds = []) → Canonical rest →
      Canonical (m :: rest)
  | turn {m answer : CompletionMessage Args} {rest : List (CompletionMessage Args)} :
      m.role = .assistant → answer.role = .user → answer.toolUses = [] →
      answer.toolResultIds = m.toolUses.map (·.id) → Canonical rest →
      Canonical (m :: answer :: rest)

end Blocks

end OpenObs.LlmGateway
