import OpenObs.Agent.ReactLoop
import OpenObs.Agent.ToolSearch
import OpenObs.Agent.Values
import OpenObs.Foundation.Machine
import OpenObs.LlmGateway.Gateway

/-!
# The run of the loop

`runLoop` of `agent-core/src/agent/react-loop.ts`, as a machine whose rests are its awaits: the
gateway, an action, and the summary at the end. What the awaited gives back is the environment's,
and the caller's signal may become aborted at any rest.
-/

namespace OpenObs.Agent

open OpenObs.Foundation OpenObs.LlmGateway

namespace ReActLoop

/-! ## What the loop does -/

structure ToolCall where
  id : String
  name : String
  input : Json.Record
  providerMetadata : Option Json.Record := none

structure Response where
  content : String
  toolCalls : List ToolCall := []
  thinkingBlocks : List String := []

structure ReActStep where
  message : Option String
  action : String
  args : Json.Record

structure AskOption where
  id : String
  label : String
  hint : Option String := none

inductive SseEvent : Type where
  | thinking (content : String)
  | reply (content : String)
  | error (message : String)
  | askUser (question : String) (options : List AskOption)
  | toolCall (tool query displayText : String)
  | toolResult (tool summary : String) (success : Bool)

inductive Effect : Type where
  | event (e : SseEvent)
  | complete (messages : List (CompletionMessage Json.Record))
  | execute (step : ReActStep)

def Effect.late : Effect → Bool
  | .execute _ => true
  | .event (.reply _) => true
  | _ => false

structure LoopDeps where
  /-- Of the identity, and empty where there is none. -/
  userId : String
  allowedTools : List String
  conversationSummary : Option String
  systemPrompt : String
  userMessage : String
  registry : ToolRegistry
  toLowerCase : String → String
  localeCompare : String → String → ℤ
  stringify : Json → String
  estimateMessagesTokens : List (CompletionMessage Json.Record) → ℕ
  classifyLlmError : String → String

/-! ## The state -/

structure LoopVars where
  observations : List (ReActObservation Json.Record) := []
  lastAction : Option String := none
  lastDraftReply : Option String := none
  lastObservation : Option String := none
  batchCounter : ℕ := 0

structure Batch where
  turn : ℕ
  batchId : ℕ
  preToolProse : Option String

inductive Pc : Type where
  | ready
  | completing (turn : ℕ)
  | executing (batch : Batch) (tc : ToolCall) (first : Bool) (rest : List ToolCall)
  | composing
  | done (result : Except Thrown String)

structure Run where
  pc : Pc := .ready
  vars : LoopVars := {}
  aborted : Bool := false
  before : List Effect := []
  after : List Effect := []

namespace Run

def emit (s : Run) (e : Effect) : Run :=
  if s.aborted then { s with after := s.after ++ [e] } else { s with before := s.before ++ [e] }

def send (s : Run) (e : SseEvent) : Run := s.emit (.event e)

def finish (s : Run) (result : Except Thrown String) : Run := { s with pc := .done result }

def replyWith (s : Run) (text : String) : Run := (s.send (.reply text)).finish (.ok text)

end Run

/-! ## The code -/

def MAX_ITERATIONS : ℕ := 200

/-- `Math.floor(CONTEXT_WINDOW * 0.95)`. -/
def TOKEN_BUDGET_TOKENS : ℕ := 121600

def TERMINAL_ACTIONS : List String := ["ask_user"]

def TOOL_SEARCH_ACTION : String := "tool_search"

def abortError : Thrown := .error "AbortError" "Agent loop aborted by caller"

section Code

variable (deps : LoopDeps)

/-- `s?.trim()`, where something is left. -/
def trimmed (s : String) : Option String := if Rbac.trim s = "" then none else some (Rbac.trim s)

def plural (n : ℕ) : String := if n = 1 then "" else "s"

def budgetReply (i : ℕ) : String :=
  "I've worked through " ++ toString i ++ " step" ++ plural i ++
    " on this task, but the conversation has grown past the context budget. Here's a summary of " ++
    "where I am so far — ask me a focused follow-up if you need more detail."

def ceilingReply : String :=
  "I ran through " ++ toString MAX_ITERATIONS ++ " steps without reaching a clear stopping point. " ++
    "This usually means the task branched more than expected or I got stuck on a loop. Try " ++
    "narrowing the request, or ask me what I learned along the way."

def emptyReply : String :=
  "Model returned no content and no tool call. This usually means the prompt or tool schema is " ++
    "misconfigured."

def composeMessages (action : String) (draftReply : Option String) (observationText : String) :
    List (CompletionMessage Json.Record) :=
  [⟨.system, .text ("You are writing the final assistant reply for an observability dashboard " ++
      "chat after an action has already completed. Write one short, natural sentence in plain " ++
      "language. Do not mention internal tool names, JSON, or implementation details.")⟩,
    ⟨.user, .text ("User request: " ++ deps.userMessage ++ "\nAction: " ++ action ++
      "\nDraft reply: " ++ draftReply.getD "(none)" ++ "\nResult: " ++ observationText)⟩]

def composedReply (draftReply content : Option String) : String :=
  ((content.bind trimmed).or (draftReply.bind trimmed)).getD
    ("I ran the action, but couldn't summarize the result. Check the activity log above for the " ++
      "raw output.")

def afterTurns (s : Run) : Run :=
  match Rbac.present s.vars.lastAction, Rbac.present s.vars.lastObservation with
  | some action, some observation =>
    { s.emit (.complete (composeMessages deps action s.vars.lastDraftReply observation)) with
      pc := .composing }
  | _, _ => s.replyWith ceilingReply

def turn (i : ℕ) (s : Run) : Run :=
  if i < MAX_ITERATIONS then
    if s.aborted then s.finish (.error abortError)
    else
      let messages := buildMessages deps.conversationSummary deps.systemPrompt deps.userMessage
        s.vars.observations
      if TOKEN_BUDGET_TOKENS < deps.estimateMessagesTokens messages then s.replyWith (budgetReply i)
      else if s.aborted then s.finish (.error abortError)
      else { s.emit (.complete messages) with pc := .completing i }
  else afterTurns deps s

def pickString : Option Json → Option String
  | some (.str v) => if Rbac.trim v = "" then none else some v
  | _ => none

def askOption (o : Json) : Option AskOption := do
  let id ← pickString (member o "id")
  let label ← pickString (member o "label")
  return { id, label, hint := pickString (member o "hint") }

def askOptions (args : Json.Record) : List AskOption :=
  match Json.field args "options" with
  | some (.arr options) => options.filterMap askOption
  | _ => []

def askUser (step : ReActStep) (s : Run) : Run :=
  let text := (((pickString (Json.field step.args "question")).or
    (pickString (Json.field step.args "message"))).or
    (pickString (Json.field step.args "text"))).or step.message |>.getD ""
  if 0 < (askOptions step.args).length then
    (s.send (.askUser text (askOptions step.args))).finish (.ok text)
  else if text = "" then s.finish (.ok text)
  else s.replyWith text

def searchSummary (result : ToolSearchResult) : String :=
  match Rbac.present result.error with
  | some e => e
  | none =>
    if 0 < result.loaded.length then
      "Loaded " ++ toString result.loaded.length ++ " tool" ++ plural result.loaded.length ++ ": " ++
        ", ".intercalate (result.loaded.map (·.getD ""))
    else "No tools matched"

def observe (batch : Batch) (tc : ToolCall) (first : Bool) (observationText : String) (s : Run) :
    Run :=
  { s with vars :=
    { s.vars with
      lastObservation := some observationText
      observations := s.vars.observations ++
        [{ action := tc.name
           args := tc.input
           result := observationText
           toolUseId := some tc.id
           batchId := some batch.batchId
           providerMetadata := tc.providerMetadata
           preToolText := if first then batch.preToolProse else none }] } }

def stepOf (batch : Batch) (first : Bool) (tc : ToolCall) : ReActStep :=
  ⟨if first then batch.preToolProse else none, tc.name, tc.input⟩

def noted (step : ReActStep) (s : Run) : Run :=
  { s with vars := { s.vars with lastAction := some step.action, lastDraftReply := step.message } }

def queryOf (tc : ToolCall) : String :=
  match Json.field tc.input "query" with
  | some (.str query) => query
  | _ => ""

def searchResult (tc : ToolCall) : Except String ToolSearchResult := do
  let allDeferredNames ← deferredToolNamesForAgent deps.registry deps.allowedTools
  resolveToolSearch deps.registry deps.toLowerCase deps.localeCompare deps.stringify (queryOf tc)
    (some allDeferredNames)

def calls (batch : Batch) : Bool → List ToolCall → Run → Run
  | _, [], s => turn deps (batch.turn + 1) s
  | first, tc :: rest, s =>
    let step := stepOf batch first tc
    if step.action ∈ TERMINAL_ACTIONS then askUser step (noted step s)
    else if step.action = TOOL_SEARCH_ACTION then
      let s := (noted step s).send (.toolCall TOOL_SEARCH_ACTION (queryOf tc) "Loading tool")
      match searchResult deps tc with
      | .error e => s.finish (.error (.error "Error" e))
      | .ok result =>
        calls batch false rest (observe batch tc first result.observation
          (s.send (.toolResult TOOL_SEARCH_ACTION (searchSummary result)
            (Rbac.present result.error).isNone)))
    else { (noted step s).emit (.execute step) with pc := .executing batch tc first rest }

def think (blocks : List String) (s : Run) : Run :=
  blocks.foldl (fun s tb => s.send (.thinking tb)) s

def narrate (preToolProse : Option String) (s : Run) : Run :=
  match preToolProse with
  | some prose => s.send (.reply prose)
  | none => s

def nextBatch (s : Run) : Run :=
  { s with vars := { s.vars with batchCounter := s.vars.batchCounter + 1 } }

def answered (i : ℕ) (response : Response) (s : Run) : Run :=
  let preToolProse := trimmed response.content
  let s := think response.thinkingBlocks s
  if response.toolCalls.length = 0 then
    match preToolProse with
    | some prose => s.replyWith prose
    | none => (s.send (.error emptyReply)).replyWith emptyReply
  else
    calls deps ⟨i, s.vars.batchCounter, preToolProse⟩ true response.toolCalls
      (nextBatch (narrate preToolProse s))

def failed (e : Thrown) (s : Run) : Run :=
  if e.isAbort then s.finish (.error e)
  else
    let userMessage := deps.classifyLlmError (getErrorMessage e)
    (s.send (.error userMessage)).replyWith userMessage

def start (s : Run) : Run :=
  if deps.userId = "" then
    s.finish (.error (.error "Error" ("ReActLoop.runLoop: identity is required. Background " ++
      "callers must resolve a service account token before starting the loop.")))
  else
    match deferredToolNamesForAgent deps.registry deps.allowedTools with
    | .error e => s.finish (.error (.error "Error" e))
    | .ok _ => turn deps 0 s

inductive Label : Type where
  | start
  | abort
  | completed (outcome : Except Thrown Response)
  | executed (outcome : Except Thrown (Option String))
  | composed (outcome : Except Thrown String)

def step (s : Run) : Label → Option Run
  | .start =>
    match s.pc with
    | .ready => some (start deps s)
    | _ => none
  | .abort =>
    match s.pc with
    | .done _ => none
    | _ => if s.aborted then none else some { s with aborted := true }
  | .completed outcome =>
    match s.pc with
    | .completing i =>
      match outcome with
      | .ok response => some (answered deps i response s)
      | .error e => some (failed deps e s)
    | _ => none
  | .executed outcome =>
    match s.pc with
    | .executing batch tc first rest =>
      match outcome with
      | .error e => some (s.finish (.error e))
      | .ok none => some (s.finish (.ok ""))
      | .ok (some text) => some (calls deps batch false rest (observe batch tc first text s))
    | _ => none
  | .composed outcome =>
    match s.pc with
    | .composing => some (s.replyWith (composedReply s.vars.lastDraftReply outcome.toOption))
    | _ => none

end Code

/-! ## What the signal leaves -/

section Law

variable {deps : LoopDeps} {s s' : Run}

/-- No action and no reply after the abort, and no other end than an `AbortError`. -/
structure Stopped (s : Run) : Prop where
  quiet : ∀ e ∈ s.after, e.late = false
  ended : s.aborted = true → ∀ result, s.pc = .done result →
    ∃ e, result = .error e ∧ e.isAbort = true

def LoopDeps.Ready (deps : LoopDeps) : Prop :=
  deps.userId ≠ "" ∧ ∃ names, deferredToolNamesForAgent deps.registry deps.allowedTools = .ok names

def SearchesOnly (i : ℕ) (tcs : List ToolCall) : Prop :=
  (∀ tc ∈ tcs, tc.name = TOOL_SEARCH_ACTION) ∧ i + 1 < MAX_ITERATIONS

/-- The abort comes where the loop still reads its signal, and what it awaits then leads there. -/
def Heeded (deps : LoopDeps) (s : Run) : Label → Prop
  | .start => s.aborted = true → deps.Ready
  | .abort => match s.pc with
      | .composing => False
      | _ => True
  | .completed outcome => s.aborted = true → ∀ i, s.pc = .completing i → match outcome with
      | .error e => e.isAbort = true
      | .ok response => trimmed response.content = none ∧ response.toolCalls ≠ [] ∧
          SearchesOnly i response.toolCalls
  | .executed outcome => s.aborted = true → ∀ batch tc first rest,
      s.pc = .executing batch tc first rest → match outcome with
        | .error e => e.isAbort = true
        | .ok none => False
        | .ok (some _) => SearchesOnly batch.turn rest
  | .composed _ => True

/-! ### What the code keeps -/

structure Unheard (s s' : Run) : Prop where
  aborted : s'.aborted = s.aborted
  after : s.aborted = false → s'.after = s.after

namespace Unheard

theorem refl (s : Run) : Unheard s s := ⟨rfl, fun _ => rfl⟩

theorem trans {t : Run} (h : Unheard s s') (h' : Unheard s' t) : Unheard s t :=
  ⟨h'.aborted.trans h.aborted, fun hs => (h'.after (h.aborted.trans hs)).trans (h.after hs)⟩

theorem emit (s : Run) (e : Effect) : Unheard s (s.emit e) := by
  unfold Run.emit
  split
  next h => exact ⟨rfl, fun hs => absurd (h.symm.trans hs) (by decide)⟩
  · exact ⟨rfl, fun _ => rfl⟩

theorem send (s : Run) (e : SseEvent) : Unheard s (s.send e) := emit s _

theorem finish (s : Run) (result : Except Thrown String) : Unheard s (s.finish result) :=
  ⟨rfl, fun _ => rfl⟩

theorem replyWith (s : Run) (text : String) : Unheard s (s.replyWith text) :=
  (send s _).trans (finish _ _)

theorem afterTurns (s : Run) : Unheard s (ReActLoop.afterTurns deps s) := by
  unfold ReActLoop.afterTurns
  split
  · exact ⟨(emit s _).aborted, (emit s _).after⟩
  · exact replyWith s _

theorem turn (i : ℕ) (s : Run) : Unheard s (ReActLoop.turn deps i s) := by
  unfold ReActLoop.turn
  split
  · split
    · exact finish s _
    · dsimp only
      split
      · exact replyWith s _
      · exact ⟨(emit s _).aborted, (emit s _).after⟩
  · exact afterTurns s

theorem askUser (step : ReActStep) (s : Run) : Unheard s (ReActLoop.askUser step s) := by
  unfold ReActLoop.askUser
  dsimp only
  split
  · exact (send s _).trans (finish _ _)
  · split
    · exact finish s _
    · exact replyWith s _

theorem observe (batch : Batch) (tc : ToolCall) (first : Bool) (text : String) (s : Run) :
    Unheard s (ReActLoop.observe batch tc first text s) := ⟨rfl, fun _ => rfl⟩

theorem noted (step : ReActStep) (s : Run) : Unheard s (ReActLoop.noted step s) :=
  ⟨rfl, fun _ => rfl⟩

theorem calls (batch : Batch) : ∀ (tcs : List ToolCall) (first : Bool) (s : Run),
    Unheard s (ReActLoop.calls deps batch first tcs s)
  | [], _, s => turn _ s
  | tc :: rest, first, s => by
    rw [ReActLoop.calls]
    refine (noted (stepOf batch first tc) s).trans ?_
    split
    · exact askUser _ _
    · split
      · refine (send _ (.toolCall TOOL_SEARCH_ACTION (queryOf tc) "Loading tool")).trans ?_
        dsimp only
        split
        · exact finish _ _
        · exact (send _ _).trans ((observe _ _ _ _ _).trans (calls batch rest false _))
      · exact ⟨(emit _ _).aborted, (emit _ _).after⟩

theorem think (blocks : List String) : ∀ s : Run, Unheard s (ReActLoop.think blocks s) := by
  induction blocks with
  | nil => exact refl
  | cons tb blocks ih => exact fun s => (send s _).trans (ih _)

theorem narrate (preToolProse : Option String) (s : Run) :
    Unheard s (ReActLoop.narrate preToolProse s) := by
  cases preToolProse with
  | none => exact refl s
  | some prose => exact send s _

theorem nextBatch (s : Run) : Unheard s (ReActLoop.nextBatch s) := ⟨rfl, fun _ => rfl⟩

theorem answered (i : ℕ) (response : Response) (s : Run) :
    Unheard s (ReActLoop.answered deps i response s) := by
  unfold ReActLoop.answered
  dsimp only
  refine (think response.thinkingBlocks s).trans ?_
  split
  · split
    · exact replyWith _ _
    · exact (send _ _).trans (replyWith _ _)
  · exact (narrate _ _).trans ((nextBatch _).trans (calls _ _ _ _))

theorem failed (e : Thrown) (s : Run) : Unheard s (ReActLoop.failed deps e s) := by
  unfold ReActLoop.failed
  split
  · exact finish s _
  · exact (send s _).trans (replyWith _ _)

theorem start (s : Run) : Unheard s (ReActLoop.start deps s) := by
  unfold ReActLoop.start
  split
  · exact finish s _
  · split
    · exact finish s _
    · exact turn 0 s

end Unheard

/-! ### What an aborted run does -/

structure Quiet (s : Run) : Prop where
  aborted : s.aborted = true
  after : ∀ e ∈ s.after, e.late = false

theorem Quiet.emit {e : Effect} (h : Quiet s) (he : e.late = false) : Quiet (s.emit e) := by
  rw [Run.emit, if_pos h.aborted]
  refine ⟨h.aborted, fun e' he' => ?_⟩
  rcases List.mem_append.mp he' with he' | he'
  · exact h.after e' he'
  · rw [List.mem_singleton.mp he']
    exact he

structure Ended (s : Run) : Prop extends Quiet s where
  result : s.pc = .done (.error abortError)

theorem turn_aborted {i : ℕ} (h : Quiet s) (hi : i < MAX_ITERATIONS) : Ended (turn deps i s) := by
  rw [turn, if_pos hi, if_pos h.aborted]
  exact ⟨⟨h.aborted, h.after⟩, rfl⟩

theorem filterDeferred_ok {registry : ToolRegistry} {names : List String}
    (h : ∀ name ∈ names, ∃ entry, lookupEntry registry name = .ok entry) :
    ∃ deferred, filterDeferred registry names = .ok deferred := by
  induction names with
  | nil => exact ⟨[], rfl⟩
  | cons name rest ih =>
    obtain ⟨entry, hentry⟩ := h name List.mem_cons_self
    obtain ⟨deferred, hdeferred⟩ := ih fun n hn => h n (List.mem_cons_of_mem _ hn)
    rw [filterDeferred, hentry, hdeferred]
    exact ⟨_, rfl⟩

theorem lookup_of_filterDeferred {registry : ToolRegistry} {names : List String} :
    ∀ {deferred : List String}, filterDeferred registry names = .ok deferred →
      ∀ name ∈ deferred, ∃ entry, lookupEntry registry name = .ok entry := by
  induction names with
  | nil =>
    intro deferred h name hin
    cases h
    cases hin
  | cons name rest ih =>
    intro deferred h
    rw [filterDeferred] at h
    cases hentry : lookupEntry registry name with
    | error e =>
      rw [hentry] at h
      cases h
    | ok entry =>
      cases hrest : filterDeferred registry rest with
      | error e =>
        rw [hentry, hrest] at h
        cases h
      | ok kept =>
        rw [hentry, hrest] at h
        cases h
        intro name' hin
        split at hin
        · rcases List.mem_cons.mp hin with rfl | hin
          · exact ⟨entry, hentry⟩
          · exact ih hrest name' hin
        · exact ih hrest name' hin

theorem searchResult_ok (h : deps.Ready) (tc : ToolCall) :
    ∃ result, searchResult deps tc = .ok result := by
  obtain ⟨-, names, hnames⟩ := h
  have hfound : ∀ name ∈ names.filter (· ∉ NON_LLM_TOOLS),
      ∃ entry, lookupEntry deps.registry name = .ok entry := fun name hin =>
    lookup_of_filterDeferred hnames name (List.mem_filter.mp hin).1
  obtain ⟨deferred, hdeferred⟩ := filterDeferred_ok hfound
  rw [searchResult, hnames]
  show ∃ result, resolveToolSearch _ _ _ _ _ (some names) = .ok result
  unfold resolveToolSearch
  dsimp only
  split
  · exact ⟨_, rfl⟩
  · rw [deferredCatalog, catalogNames, deferredToolNamesForAgent, hdeferred]
    exact ⟨_, rfl⟩

theorem calls_aborted {batch : Batch} (hready : deps.Ready)
    (hturn : batch.turn + 1 < MAX_ITERATIONS) : ∀ {tcs : List ToolCall} {first : Bool} {s : Run},
    (∀ tc ∈ tcs, tc.name = TOOL_SEARCH_ACTION) → Quiet s → Ended (calls deps batch first tcs s)
  | [], _, _, _, h => turn_aborted h hturn
  | tc :: rest, first, s, htcs, h => by
    have hname : (stepOf batch first tc).action = TOOL_SEARCH_ACTION := htcs tc List.mem_cons_self
    obtain ⟨result, hresult⟩ := searchResult_ok hready tc
    rw [calls]
    dsimp only
    rw [hname, if_neg (by decide), if_pos rfl, hresult]
    have hnoted : Quiet (noted (stepOf batch first tc) s) := ⟨h.aborted, h.after⟩
    have hsent := (hnoted.emit (e := .event (.toolCall TOOL_SEARCH_ACTION (queryOf tc)
      "Loading tool")) rfl).emit (e := .event (.toolResult TOOL_SEARCH_ACTION
        (searchSummary result) (Rbac.present result.error).isNone)) rfl
    exact calls_aborted hready hturn (fun tc' htc' => htcs tc' (List.mem_cons_of_mem _ htc'))
      ⟨hsent.aborted, hsent.after⟩

theorem think_aborted (blocks : List String) : ∀ {s : Run}, Quiet s → Quiet (think blocks s) := by
  induction blocks with
  | nil => exact id
  | cons tb blocks ih => exact fun h => ih (h.emit rfl)

theorem answered_aborted {i : ℕ} {response : Response} (hready : deps.Ready)
    (hprose : trimmed response.content = none) (hcalls : response.toolCalls ≠ [])
    (honly : SearchesOnly i response.toolCalls) (h : Quiet s) :
    Ended (answered deps i response s) := by
  have hthought := think_aborted response.thinkingBlocks h
  unfold answered
  dsimp only
  rw [if_neg (fun hlen => hcalls (List.length_eq_zero_iff.mp hlen)), hprose]
  exact calls_aborted hready honly.2 honly.1 ⟨hthought.aborted, hthought.after⟩

/-! ### Every run -/

structure Inv (deps : LoopDeps) (s : Run) : Prop extends Stopped s where
  unaborted : s.aborted = false → s.after = []
  notComposing : s.aborted = true → s.pc ≠ .composing
  started : s.pc = .ready ∨ (∃ result, s.pc = .done result) ∨ deps.Ready

theorem Inv.quiet_of_aborted (h : Inv deps s) (haborted : s.aborted = true) : Quiet s :=
  ⟨haborted, h.quiet⟩

theorem Inv.of_ended (h : Ended s) : Inv deps s where
  quiet := h.after
  ended _ result hresult := by
    rw [h.result] at hresult
    cases hresult
    exact ⟨abortError, rfl, rfl⟩
  unaborted hnot := absurd (h.aborted.symm.trans hnot) (by decide)
  notComposing _ hpc := by
    rw [h.result] at hpc
    cases hpc
  started := Or.inr (Or.inl ⟨_, h.result⟩)

theorem Inv.of_unheard (h : Inv deps s) (hnot : s.aborted = false) (hunheard : Unheard s s')
    (hstarted : s'.pc = .ready ∨ (∃ result, s'.pc = .done result) ∨ deps.Ready) : Inv deps s' := by
  have hafter : s'.after = [] := (hunheard.after hnot).trans (h.unaborted hnot)
  have hnot' : s'.aborted = false := hunheard.aborted.trans hnot
  refine ⟨⟨fun e he => ?_, fun haborted => ?_⟩, fun _ => hafter, fun haborted => ?_, hstarted⟩
  · rw [hafter] at he
    cases he
  · exact absurd (hnot'.symm.trans haborted) (by decide)
  · exact absurd (hnot'.symm.trans haborted) (by decide)

theorem Inv.finish (h : Inv deps s) {e : Thrown} (he : e.isAbort = true) :
    Inv deps (s.finish (.error e)) where
  quiet := h.quiet
  ended _ result hresult := by
    cases hresult
    exact ⟨e, rfl, he⟩
  unaborted := h.unaborted
  notComposing _ hpc := by cases hpc
  started := Or.inr (Or.inl ⟨_, rfl⟩)

theorem start_started (s : Run) : (start deps s).pc = .ready ∨
    (∃ result, (start deps s).pc = .done result) ∨ deps.Ready := by
  unfold start
  split
  · exact Or.inr (Or.inl ⟨_, rfl⟩)
  next huser =>
    split
    · exact Or.inr (Or.inl ⟨_, rfl⟩)
    next names hnames => exact Or.inr (Or.inr ⟨huser, names, hnames⟩)

theorem Inv.step {l : Label} (h : Inv deps s) (hok : Heeded deps s l)
    (hstep : step deps s l = some s') : Inv deps s' := by
  cases l with
  | start =>
    simp only [ReActLoop.step] at hstep
    split at hstep
    · cases hstep
      cases haborted : s.aborted with
      | false => exact h.of_unheard haborted (Unheard.start s) (start_started s)
      | true =>
        obtain ⟨huser, names, hnames⟩ := hok haborted
        refine Inv.of_ended ?_
        rw [start, if_neg huser, hnames]
        exact turn_aborted (h.quiet_of_aborted haborted) (by decide)
    · cases hstep
  | abort =>
    simp only [ReActLoop.step] at hstep
    split at hstep
    · cases hstep
    next hdone =>
      split at hstep
      · cases hstep
      next hnot =>
        cases hstep
        refine ⟨⟨?_, fun _ result hresult => absurd hresult (hdone result)⟩,
          fun hfalse => (nomatch hfalse), fun _ hpc => ?_, h.started⟩
        · exact h.quiet
        · have hcomposing : s.pc = .composing := hpc
          rw [Heeded, hcomposing] at hok
          exact hok
  | completed outcome =>
    simp only [ReActLoop.step] at hstep
    split at hstep
    next i hpc =>
      have hready : deps.Ready := by
        rcases h.started with hready | ⟨result, hdone⟩ | hready
        · rw [hpc] at hready
          cases hready
        · rw [hpc] at hdone
          cases hdone
        · exact hready
      cases outcome with
      | error e =>
        cases hstep
        cases haborted : s.aborted with
        | false =>
          exact h.of_unheard haborted (Unheard.failed e s) (Or.inr (Or.inr hready))
        | true =>
          have he : e.isAbort = true := hok haborted i hpc
          rw [failed, if_pos he]
          exact h.finish he
      | ok response =>
        cases hstep
        cases haborted : s.aborted with
        | false =>
          exact h.of_unheard haborted (Unheard.answered i response s)
            (Or.inr (Or.inr hready))
        | true =>
          obtain ⟨hprose, hcalls, honly⟩ := hok haborted i hpc
          exact Inv.of_ended (answered_aborted hready hprose hcalls honly
            (h.quiet_of_aborted haborted))
    · cases hstep
  | executed outcome =>
    simp only [ReActLoop.step] at hstep
    split at hstep
    next batch tc first rest hpc =>
      have hready : deps.Ready := by
        rcases h.started with hready | ⟨result, hdone⟩ | hready
        · rw [hpc] at hready
          cases hready
        · rw [hpc] at hdone
          cases hdone
        · exact hready
      cases haborted : s.aborted with
      | false =>
        have hunheard : Unheard s s' := by
          split at hstep
          · cases hstep
            exact Unheard.finish s _
          · cases hstep
            exact Unheard.finish s _
          · cases hstep
            exact (Unheard.observe _ _ _ _ s).trans (Unheard.calls _ _ _ _)
        exact h.of_unheard haborted hunheard (Or.inr (Or.inr hready))
      | true =>
        have hheeded := hok haborted batch tc first rest hpc
        split at hstep
        · cases hstep
          exact h.finish hheeded
        · cases hheeded
        next text =>
          cases hstep
          obtain ⟨honly, hturn⟩ := hheeded
          exact Inv.of_ended (calls_aborted hready hturn honly ⟨haborted, h.quiet⟩)
    · cases hstep
  | composed outcome =>
    simp only [ReActLoop.step] at hstep
    split at hstep
    next hpc =>
      cases hstep
      cases haborted : s.aborted with
      | false =>
        exact h.of_unheard haborted (Unheard.replyWith s _) (Or.inr (Or.inl ⟨_, rfl⟩))
      | true => exact absurd hpc (h.notComposing haborted)
    · cases hstep

end Law

/-- **An abort that is heeded stops the loop.** In a run whose steps are all heeded, no action and
no reply comes after the abort, and the run ends with an `AbortError`. -/
theorem stopped_of_heeded (deps : LoopDeps) {s : Run}
    (h : Reaches (step deps) (Heeded deps) {} s) : Stopped s := by
  have hinv : Inv deps s := by
    refine h.invariant ?_ fun _ _ _ hinv hok hstep => hinv.step hok hstep
    exact ⟨⟨fun e he => (nomatch he), fun haborted => (nomatch haborted)⟩, fun _ => rfl,
      fun haborted => (nomatch haborted), Or.inl rfl⟩
  exact hinv.toStopped

/-! ### A client that leaves -/

def noTools : ToolRegistry where
  entries := []
  keys_nodup := List.nodup_nil
  keyed _ h := nomatch h
  callable _ h := nomatch h
  named _ h := nomatch h

def oneUser : LoopDeps where
  userId := "ana"
  allowedTools := []
  conversationSummary := none
  systemPrompt := "You are an agent."
  userMessage := "restart the pod"
  registry := noTools
  toLowerCase := id
  localeCompare _ _ := 0
  stringify _ := ""
  estimateMessagesTokens _ := 0
  classifyLlmError := id

def twoCommands : Response where
  content := ""
  toolCalls := [⟨"1", "ops_run_command", [], none⟩, ⟨"2", "ops_run_command", [], none⟩]

/-- The client leaves during the gateway call, which gives up on the signal. -/
theorem stopped_of_heeded_leaving : ∃ s, follow (step oneUser) {}
    [.start, .abort, .completed (.error abortError)] = some s ∧ Stopped s := by
  refine ⟨_, rfl, stopped_of_heeded oneUser (@Reaches.of_follow _ _ _ _ _
    [.start, .abort, .completed (.error abortError)] _ _ .init ?_ rfl)⟩
  refine ⟨fun h => (nomatch h), fun s hs => ?_⟩
  cases hs
  refine ⟨trivial, fun s hs => ?_⟩
  cases hs
  exact ⟨fun _ _ _ => rfl, fun _ _ => trivial⟩

/-- The client leaves during the first command, and the second is run. -/
theorem second_command_runs : ¬ ∀ (deps : LoopDeps) (labels : List Label) (s : Run),
    follow (step deps) {} labels = some s → Stopped s := by
  intro h
  have hrun : (follow (step oneUser) {} [.start, .completed (.ok twoCommands), .abort,
      .executed (.ok (some "restarted"))]).any (fun s => s.after.any Effect.late) = true := by
    decide +kernel
  obtain ⟨s, hs, hlate⟩ := (Option.any_eq_true _ _).mp hrun
  obtain ⟨e, he, hlate⟩ := List.any_eq_true.mp hlate
  exact absurd (((h oneUser _ s hs).quiet e he).symm.trans hlate) (by decide)

end ReActLoop

end OpenObs.Agent
