import OpenObs.Agent.Replay
import OpenObs.LlmGateway.OpenAi

/-!
# Gemini

`llm-gateway/src/providers/gemini.ts`: the contents of a request and the tool calls of an answer. A
function call that came with a thought signature has to go back with it, or the request is refused.
-/

namespace OpenObs.LlmGateway.Gemini

open OpenObs.Foundation OpenObs.Agent OpenObs.Agent.ReActLoop OpenObs.LlmGateway.OpenAi

/-! ## A request -/

inductive Part : Type where
  | text (text : String)
  | functionCall (name : String) (args : Json.Record) (thoughtSignature : Option String)
  | functionResponse (name result : String)

inductive GeminiRole : Type where
  | user
  | model
deriving DecidableEq

structure GeminiContent where
  role : GeminiRole
  parts : List Part

def signature (providerMetadata : Option Json.Record) : Option String :=
  match Json.field (providerMetadata.getD []) "thoughtSignature" with
  | some (.str sig) => if sig = "" then none else some sig
  | _ => none

def part : ContentBlock Json.Record → Part
  | .text text => .text text
  | .toolUse _ name input metadata => .functionCall (nameToGemini name) input (signature metadata)
  | .toolResult _ toolName content _ => .functionResponse (nameToGemini toolName) content

def content (m : CompletionMessage Json.Record) : GeminiContent where
  role := if m.role = .assistant then .model else .user
  parts :=
    match m.content with
    | .text text => [.text text]
    | .blocks blocks => blocks.map part

def contents (messages : List (CompletionMessage Json.Record)) : List GeminiContent :=
  (messages.filter (·.role ≠ .system)).map content

def flattenContent (c : Content Json.Record) : String :=
  match c with
  | .text text => text
  | .blocks blocks => Text.join (blockTexts blocks) '\n'

def systemInstruction (messages : List (CompletionMessage Json.Record)) : Option String :=
  let systemParts := messages.filter (·.role = .system)
  if systemParts.length > 0 then
    some (stripCacheBoundary (Text.join (systemParts.map fun s => flattenContent s.content) '\n'))
  else none

/-! ## An answer -/

structure FunctionCall where
  name : Option String
  args : Option Json.Record

/-- The properties that are read. -/
structure ResponsePart where
  text : Option String := none
  thought : Bool := false
  functionCall : Option FunctionCall := none
  thoughtSignature : Option String := none

structure Parsed where
  textPieces : List String := []
  thinkingBlocks : List String := []
  toolCalls : List ReActLoop.ToolCall := []
  callIndex : ℕ := 0

def callId (callIndex : ℕ) : String := "gemini_call_" ++ toString callIndex

def parsePart (r : Parsed) (part : ResponsePart) : Parsed :=
  match part.text, part.functionCall with
  | some text, _ =>
    if part.thought then { r with thinkingBlocks := r.thinkingBlocks ++ [text] }
    else { r with textPieces := r.textPieces ++ [text] }
  | none, some ⟨some name, args⟩ =>
    { r with
      toolCalls := r.toolCalls ++
        [{ id := callId r.callIndex
           name := nameFromGemini name
           input := args.getD []
           providerMetadata :=
             part.thoughtSignature.map fun sig => [("thoughtSignature", .str sig)] }]
      callIndex := r.callIndex + 1 }
  | none, _ => r

def parse (parts : List ResponsePart) : Parsed := parts.foldl parsePart {}

def response (parts : List ResponsePart) : Response where
  content := String.join (parse parts).textPieces
  toolCalls := (parse parts).toolCalls
  thinkingBlocks := (parse parts).thinkingBlocks

/-! ## What goes back -/

def Part.calls : Part → Option String
  | .functionCall name _ _ => some name
  | _ => none

def Part.answers : Part → Option String
  | .functionResponse name _ => some name
  | _ => none

section Law

variable {parts : List ResponsePart} {name : String}

end Law

end OpenObs.LlmGateway.Gemini
