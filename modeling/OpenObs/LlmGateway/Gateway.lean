import Mathlib.Data.List.Infix
import OpenObs.LlmGateway.Messages

/-!
# The gateway

`llm-gateway/src/gateway.ts`: a call goes to the primary provider with retries, then to the
fallback. Answers and failures are booked into the token metrics, the audit log and the observer,
within the same ladder of `try` and `catch` that tells an answer from a failure.
-/

namespace OpenObs.LlmGateway

open OpenObs.Foundation

/-! ## Errors -/

/-- `AdapterErrorKind`. -/
inductive ProviderErrorKind : Type where
  | timeout
  | dnsFailure
  | connectionRefused
  | authFailure
  | rateLimit
  | notFound
  | badRequest
  | serverError
  | malformedResponse
  | readonly
  | unknown
deriving DecidableEq

/-- What a provider, a sink or an observer throws: a `ProviderCapabilityError`, a
`ProviderError`, another `Error` with its name, or a value that is no error. -/
inductive Thrown : Type where
  | capability (message : String)
  | provider (kind : ProviderErrorKind) (message : String) (retryAfterSec : Option Rat)
  | error (name message : String)
  | value (text : String)
deriving DecidableEq

def Thrown.isAbort : Thrown → Bool
  | .error name _ => name = "AbortError"
  | _ => false

def getErrorMessage : Thrown → String
  | .capability message => message
  | .provider _ message _ => message
  | .error _ message => message
  | .value text => text

/-- `/a|b|…/i.test(message)`. -/
def mentions (words : List String) (message : String) : Bool :=
  words.any fun word => decide
    (word.toList.map Char.toLower <:+: message.toList.map Char.toLower)

structure RetryDecision where
  retry : Bool
  delayMs : Option Rat := none

def shouldRetryError : Thrown → RetryDecision
  | .capability _ => { retry := false }
  | .provider kind _ retryAfterSec =>
    if kind ∈ [.timeout, .dnsFailure, .connectionRefused, .rateLimit, .serverError] then
      { retry := true, delayMs := retryAfterSec.map (· * 1000) }
    else { retry := false }
  | .error _ message =>
    { retry := mentions ["ENOTFOUND", "ECONNREFUSED", "ETIMEDOUT", "ECONNRESET", "fetch failed"]
        message }
  | .value _ => { retry := false }

inductive AuditErrorKind : Type where
  | timeout
  | network
  | ratelimit
  | auth
  | server
  | aborted
  | unknown
deriving DecidableEq

def classifyMessage (message : String) : AuditErrorKind :=
  if mentions ["timeout", "ETIMEDOUT"] message then .timeout
  else if mentions ["ENOTFOUND", "ECONNREFUSED", "ECONNRESET", "fetch failed"] message then .network
  else .unknown

def classifyAuditError : Thrown → AuditErrorKind
  | .provider .authFailure _ _ => .auth
  | .provider .rateLimit _ _ => .ratelimit
  | .provider .serverError _ _ => .server
  | .provider .timeout _ _ => .timeout
  | .provider .dnsFailure _ _ => .network
  | .provider .connectionRefused _ _ => .network
  | .provider _ _ _ => .unknown
  | .error name message => if name = "AbortError" then .aborted else classifyMessage message
  | .capability message => classifyMessage message
  | .value _ => .unknown

/-! ## Prices -/

structure ModelPricing where
  inputPerMillion : Rat
  outputPerMillion : Rat

def PRICING_TABLE : List (String × ModelPricing) :=
  [("claude-opus-4-7", ⟨15, 75⟩),
    ("claude-opus-4-6", ⟨15, 75⟩),
    ("claude-opus-4", ⟨15, 75⟩),
    ("claude-sonnet-4-6", ⟨3, 15⟩),
    ("claude-sonnet-4-5", ⟨3, 15⟩),
    ("claude-sonnet-4", ⟨3, 15⟩),
    ("claude-haiku-4-5", ⟨1, 5⟩),
    ("claude-haiku-4", ⟨1, 5⟩),
    ("claude-3-7-sonnet", ⟨3, 15⟩),
    ("claude-3-5-sonnet", ⟨3, 15⟩),
    ("claude-3-5-haiku", ⟨0.8, 4⟩),
    ("claude-3-opus", ⟨15, 75⟩),
    ("claude-3-sonnet", ⟨3, 15⟩),
    ("claude-3-haiku", ⟨0.25, 1.25⟩),
    ("gpt-5-mini", ⟨0.25, 2⟩),
    ("gpt-5", ⟨1.25, 10⟩),
    ("o3-mini", ⟨1.1, 4.4⟩),
    ("o3", ⟨2, 8⟩),
    ("o1-mini", ⟨1.1, 4.4⟩),
    ("o1", ⟨15, 60⟩),
    ("gpt-4o-mini", ⟨0.15, 0.6⟩),
    ("gpt-4o", ⟨2.5, 10⟩),
    ("gpt-4-turbo", ⟨10, 30⟩),
    ("gpt-4", ⟨30, 60⟩),
    ("gpt-3.5-turbo", ⟨0.5, 1.5⟩),
    ("gemini-2.5-pro", ⟨1.25, 10⟩),
    ("gemini-2.5-flash", ⟨0.3, 2.5⟩),
    ("gemini-2.0-flash", ⟨0.1, 0.4⟩),
    ("gemini-1.5-pro", ⟨1.25, 5⟩),
    ("gemini-1.5-flash", ⟨0.075, 0.3⟩),
    ("deepseek-chat", ⟨0.27, 1.1⟩),
    ("deepseek-reasoner", ⟨0.55, 2.19⟩)]

def lookupPricing (toLowerCase : String → String) (model : String) : Option ModelPricing :=
  (PRICING_TABLE.find? fun row => decide (row.1.toList <:+: (toLowerCase model).toList)).map (·.2)

def computeCostUsd (toLowerCase : String → String) (model : String) (inputTokens outputTokens : ℕ) :
    Option Rat :=
  (lookupPricing toLowerCase model).map fun price =>
    inputTokens * price.inputPerMillion / 1000000 + outputTokens * price.outputPerMillion / 1000000

/-! ## Records -/

structure LLMUsage where
  promptTokens : ℕ
  completionTokens : ℕ
  totalTokens : ℕ
deriving DecidableEq

structure LLMResponse (Args : Type) where
  content : String
  toolCalls : List (ToolUse Args) := []
  thinkingBlocks : Option (List String) := none
  usage : LLMUsage
  model : String
  latencyMs : Int := 0
deriving DecidableEq

structure TokenMetrics where
  totalPromptTokens : ℕ := 0
  totalCompletionTokens : ℕ := 0
  totalTokens : ℕ := 0
  callCount : ℕ := 0
deriving DecidableEq

def TokenMetrics.add (metrics : TokenMetrics) (usage : LLMUsage) : TokenMetrics where
  totalPromptTokens := metrics.totalPromptTokens + usage.promptTokens
  totalCompletionTokens := metrics.totalCompletionTokens + usage.completionTokens
  totalTokens := metrics.totalTokens + usage.totalTokens
  callCount := metrics.callCount + 1

structure AuditContext where
  orgId : Option String := none
  userId : Option String := none
  sessionId : Option String := none

structure AuditEntry where
  id : String
  requestedAt : String
  provider : String
  model : String
  promptHash : String
  inputTokens : ℕ
  outputTokens : ℕ
  totalTokens : ℕ
  cachedTokens : Option ℕ
  costUsd : Option Rat
  latencyMs : Int
  success : Bool
  errorKind : Option AuditErrorKind
  abortReason : Option String
  orgId : Option String
  userId : Option String
  sessionId : Option String

structure SuccessEvent where
  provider : String
  model : String
  latencyMs : Int
  promptTokens : ℕ
  completionTokens : ℕ
  totalTokens : ℕ

structure FailureEvent where
  provider : String
  model : String
  latencyMs : Int
  error : String

structure LLMGatewayMetricsObserver where
  recordSuccess : Option (SuccessEvent → Except Thrown Unit) := none
  recordFailure : Option (FailureEvent → Except Thrown Unit) := none

/-! ## A call -/

inductive Slot : Type where
  | primary
  | fallback
deriving DecidableEq

/-- A provider in the course of one call: what its invocations come to, and whether the
caller's signal is aborted at the top of each iteration. -/
structure LLMProvider (Args : Type) where
  name : String
  complete : ℕ → Except Thrown (LLMResponse Args)
  aborted : ℕ → Bool := fun _ => false

structure GatewayConfig (Args : Type) where
  primary : LLMProvider Args
  fallback : Option (LLMProvider Args) := none
  maxRetries : ℕ := 3
  retryDelayMs : ℕ := 200
  metricsObserver : Option LLMGatewayMetricsObserver := none
  auditSink : Option (AuditEntry → Except Thrown Unit) := none

structure Stamp where
  id : String
  now : Int

structure DrawnCompletion where
  promptHash : String
  startTime : Int
  requestedAt : String
  toLowerCase : String → String
  success : Slot → Stamp
  failure : Stamp

structure Gateway where
  metrics : TokenMetrics := {}
  auditMemory : List AuditEntry := []
  persisted : List AuditEntry := []
  invoked : List Slot := []
  waited : List Rat := []

abbrev Call (α : Type) : Type := ExceptT Thrown (StateM Gateway) α

def Call.run {α : Type} (call : Call α) (g : Gateway) : Except Thrown α × Gateway := call g

def Call.update (f : Gateway → Gateway) : Call Unit := modify f

def Call.give {α : Type} (result : Except Thrown α) : Call α := ExceptT.mk (pure result)

namespace Call

variable {α β : Type} {call : Call α} {g g' : Gateway}

@[simp] theorem run_update (f : Gateway → Gateway) : (update f).run g = (.ok (), f g) := rfl

@[simp] theorem run_give (result : Except Thrown α) : (give result).run g = (result, g) := rfl

@[simp] theorem run_pure (a : α) : (pure a : Call α).run g = (.ok a, g) := rfl

@[simp] theorem run_throw (e : Thrown) : (throw e : Call α).run g = (.error e, g) := rfl

theorem run_bind_ok {next : α → Call β} {a : α} (h : call.run g = (.ok a, g')) :
    (call >>= next).run g = (next a).run g' := by
  change call g = _ at h
  show (ExceptT.bind call next) g = _
  simp only [ExceptT.bind, ExceptT.mk, bind, StateT.bind, h]
  rfl

theorem run_bind_error {next : α → Call β} {e : Thrown} (h : call.run g = (.error e, g')) :
    (call >>= next).run g = (.error e, g') := by
  change call g = _ at h
  show (ExceptT.bind call next) g = _
  simp only [ExceptT.bind, ExceptT.mk, bind, StateT.bind, h]
  rfl

theorem run_update_bind {next : Unit → Call β} (f : Gateway → Gateway) :
    (update f >>= next).run g = (next ()).run (f g) := rfl

theorem run_tryCatch_ok {handler : Thrown → Call α} {a : α} (h : call.run g = (.ok a, g')) :
    (tryCatch call handler).run g = (.ok a, g') := by
  change call g = _ at h
  show (ExceptT.tryCatch call handler) g = _
  simp only [ExceptT.tryCatch, ExceptT.mk, bind, StateT.bind, h]
  rfl

theorem run_tryCatch_error {handler : Thrown → Call α} {e : Thrown}
    (h : call.run g = (.error e, g')) :
    (tryCatch call handler).run g = (handler e).run g' := by
  change call g = _ at h
  show (ExceptT.tryCatch call handler) g = _
  simp only [ExceptT.tryCatch, ExceptT.mk, bind, StateT.bind, h]
  rfl

end Call

section Code

variable {Args : Type} (config : GatewayConfig Args) (drawn : DrawnCompletion)
  (auditContext : AuditContext)

def abortErr : Thrown := .error "AbortError" "LLM call aborted by caller"

def waitBefore (decision : RetryDecision) (attempt : ℕ) : Rat :=
  match decision.delayMs with
  | some delayMs => if delayMs ≤ 30000 then delayMs else 30000
  | none => config.retryDelayMs * 2 ^ attempt

/-- `left` attempts are left. -/
def attempts (slot : Slot) (provider : LLMProvider Args) :
    ℕ → ℕ → Thrown → Call (LLMResponse Args)
  | 0, _, lastError => Call.give (.error lastError)
  | left + 1, attempt, _ =>
    if provider.aborted attempt then Call.give (.error abortErr)
    else do
      Call.update fun g => { g with invoked := g.invoked ++ [slot] }
      match provider.complete attempt with
      | .ok response => return response
      | .error error =>
        if error.isAbort then Call.give (.error error)
        else
          let decision := shouldRetryError error
          if decision.retry = false then Call.give (.error error)
          else do
            -- no wait behind the last attempt
            if left > 0 then
              let delayMs := waitBefore config decision attempt
              Call.update fun g => { g with waited := g.waited ++ [delayMs] }
            attempts slot provider left (attempt + 1) error

def callWithRetry (slot : Slot) (provider : LLMProvider Args) : Call (LLMResponse Args) :=
  attempts config slot provider config.maxRetries 0 (.value "undefined")

def persistAudit (entry : AuditEntry) : Call Unit :=
  match config.auditSink with
  | none => Call.update fun g => { g with auditMemory := g.auditMemory ++ [entry] }
  | some record => do
      Call.update fun g => { g with auditMemory := g.auditMemory ++ [entry] }
      tryCatch
        (do
          Call.update fun g => { g with persisted := g.persisted ++ [entry] }
          Call.give (record entry))
        fun _ => return ()

def successEntry (slot : Slot) (providerName : String) (response : LLMResponse Args) :
    AuditEntry where
  id := (drawn.success slot).id
  requestedAt := drawn.requestedAt
  provider := providerName
  model := response.model
  promptHash := drawn.promptHash
  inputTokens := response.usage.promptTokens
  outputTokens := response.usage.completionTokens
  totalTokens := response.usage.totalTokens
  cachedTokens := none
  costUsd := computeCostUsd drawn.toLowerCase response.model response.usage.promptTokens
    response.usage.completionTokens
  latencyMs := (drawn.success slot).now - drawn.startTime
  success := true
  errorKind := none
  abortReason := none
  orgId := auditContext.orgId
  userId := auditContext.userId
  sessionId := auditContext.sessionId

def successEvent (slot : Slot) (providerName : String) (response : LLMResponse Args) :
    SuccessEvent where
  provider := providerName
  model := response.model
  latencyMs := (drawn.success slot).now - drawn.startTime
  promptTokens := response.usage.promptTokens
  completionTokens := response.usage.completionTokens
  totalTokens := response.usage.totalTokens

/-- `this.metricsObserver?.recordSuccess?.(event)`. -/
def observeSuccess (event : SuccessEvent) : Except Thrown Unit :=
  match config.metricsObserver.bind (·.recordSuccess) with
  | some recordSuccess => recordSuccess event
  | none => .ok ()

def observeFailure (event : FailureEvent) : Except Thrown Unit :=
  match config.metricsObserver.bind (·.recordFailure) with
  | some recordFailure => recordFailure event
  | none => .ok ()

def recordSuccess (slot : Slot) (providerName : String) (response : LLMResponse Args) :
    Call Unit := do
  Call.update fun g => { g with metrics := g.metrics.add response.usage }
  persistAudit config (successEntry drawn auditContext slot providerName response)
  Call.give (observeSuccess config (successEvent drawn slot providerName response))

def failureEntry (providerName : String) (error : Thrown) : AuditEntry where
  id := drawn.failure.id
  requestedAt := drawn.requestedAt
  provider := providerName
  model := "unknown"
  promptHash := drawn.promptHash
  inputTokens := 0
  outputTokens := 0
  totalTokens := 0
  cachedTokens := none
  costUsd := none
  latencyMs := drawn.failure.now - drawn.startTime
  success := false
  errorKind := some (classifyAuditError error)
  abortReason := if classifyAuditError error = .aborted then some "caller_disconnect" else none
  orgId := auditContext.orgId
  userId := auditContext.userId
  sessionId := auditContext.sessionId

def recordFailure (providerName : String) (error : Thrown) : Call Unit := do
  persistAudit config (failureEntry drawn auditContext providerName error)
  Call.give (observeFailure config
    { provider := providerName, model := "unknown",
      latencyMs := drawn.failure.now - drawn.startTime, error := getErrorMessage error })

/-- The body of a `try`: the response of a provider, booked. -/
def answered (slot : Slot) (provider : LLMProvider Args) : Call (LLMResponse Args) := do
  let response ← callWithRetry config slot provider
  recordSuccess config drawn auditContext slot provider.name response
  return response

def complete : Call (LLMResponse Args) :=
  tryCatch (answered config drawn auditContext .primary config.primary) fun primaryError =>
    match config.fallback with
    | some fallback =>
      tryCatch (answered config drawn auditContext .fallback fallback) fun fallbackError => do
        recordFailure config drawn auditContext fallback.name fallbackError
        throw fallbackError
    | none => do
        recordFailure config drawn auditContext config.primary.name primaryError
        throw primaryError

end Code

/-! ## Retries -/

section Retries

variable {Args : Type} {config : GatewayConfig Args} {slot : Slot} {provider : LLMProvider Args}

def Thrown.Retryable (e : Thrown) : Prop := e.isAbort = false ∧ (shouldRetryError e).retry = true

def AnswersFrom (provider : LLMProvider Args) (left attempt : ℕ) (response : LLMResponse Args) :
    Prop :=
  ∃ n < left, (∀ i ≤ n, provider.aborted (attempt + i) = false) ∧
    (∀ i < n, ∃ e, provider.complete (attempt + i) = .error e ∧ e.Retryable) ∧
    provider.complete (attempt + n) = .ok response

def Answers (provider : LLMProvider Args) (maxRetries : ℕ) (response : LLMResponse Args) : Prop :=
  AnswersFrom provider maxRetries 0 response

structure TriedFrom (provider : LLMProvider Args) (left attempt n : ℕ) : Prop where
  bounded : n ≤ left
  notAborted : ∀ i < n, provider.aborted (attempt + i) = false
  retried : ∀ i, i + 1 < n → ∃ e, provider.complete (attempt + i) = .error e ∧ e.Retryable

def Tried (provider : LLMProvider Args) (maxRetries n : ℕ) : Prop :=
  TriedFrom provider maxRetries 0 n

inductive Ends (provider : LLMProvider Args) (left attempt n : ℕ) :
    Except Thrown (LLMResponse Args) → Prop where
  | answer (response : LLMResponse Args) (h : AnswersFrom provider left attempt response)
      (hlast : ∀ i < n, ∀ r, provider.complete (attempt + i) = .ok r → r = response) :
      Ends provider left attempt n (.ok response)
  | failure (e : Thrown) (h : ∀ response, ¬ AnswersFrom provider left attempt response)
      (hall : ∀ i < n, ∃ e, provider.complete (attempt + i) = .error e) :
      Ends provider left attempt n (.error e)

theorem answersFrom_zero {attempt : ℕ} {response : LLMResponse Args} :
    ¬ AnswersFrom provider 0 attempt response := by
  rintro ⟨n, hn, -⟩
  exact absurd hn (Nat.not_lt_zero n)

variable {left attempt n : ℕ} {e : Thrown} {result : Except Thrown (LLMResponse Args)}

theorem not_answersFrom (herror : provider.complete attempt = .error e) (h : ¬ e.Retryable)
    (response : LLMResponse Args) : ¬ AnswersFrom provider (left + 1) attempt response := by
  rintro ⟨n, -, -, hretried, hlast⟩
  cases n with
  | zero =>
    rw [Nat.add_zero, herror] at hlast
    cases hlast
  | succ n =>
    obtain ⟨e', he', hretry⟩ := hretried 0 (Nat.succ_pos n)
    rw [Nat.add_zero, herror] at he'
    cases he'
    exact h hretry

theorem answersFrom_succ (haborted : provider.aborted attempt = false)
    (herror : provider.complete attempt = .error e) (h : e.Retryable)
    (response : LLMResponse Args) :
    AnswersFrom provider (left + 1) attempt response ↔
      AnswersFrom provider left (attempt + 1) response := by
  constructor
  · rintro ⟨n, hn, hopen, hretried, hlast⟩
    cases n with
    | zero =>
      rw [Nat.add_zero, herror] at hlast
      cases hlast
    | succ n =>
      refine ⟨n, Nat.lt_of_succ_lt_succ hn, fun i hi => ?_, fun i hi => ?_, ?_⟩
      · rw [Nat.add_assoc, Nat.add_comm 1]
        exact hopen (i + 1) (Nat.succ_le_succ hi)
      · rw [Nat.add_assoc, Nat.add_comm 1]
        exact hretried (i + 1) (Nat.succ_lt_succ hi)
      · rw [Nat.add_assoc, Nat.add_comm 1]
        exact hlast
  · rintro ⟨n, hn, hopen, hretried, hlast⟩
    have hshift : ∀ i, attempt + (i + 1) = attempt + 1 + i := fun i => by omega
    refine ⟨n + 1, Nat.succ_lt_succ hn, fun i hi => ?_, fun i hi => ?_, ?_⟩
    · cases i with
      | zero => exact haborted
      | succ i =>
        rw [hshift]
        exact hopen i (Nat.le_of_succ_le_succ hi)
    · cases i with
      | zero => exact ⟨e, herror, h⟩
      | succ i =>
        rw [hshift]
        exact hretried i (Nat.lt_of_succ_lt_succ hi)
    · rw [hshift]
      exact hlast

theorem TriedFrom.succ (haborted : provider.aborted attempt = false)
    (herror : provider.complete attempt = .error e) (h : e.Retryable)
    (htried : TriedFrom provider left (attempt + 1) n) :
    TriedFrom provider (left + 1) attempt (n + 1) where
  bounded := Nat.succ_le_succ htried.bounded
  notAborted := by
    intro i hi
    cases i with
    | zero => exact haborted
    | succ i =>
      rw [Nat.add_comm i, ← Nat.add_assoc]
      exact htried.notAborted i (Nat.lt_of_succ_lt_succ hi)
  retried := by
    intro i hi
    cases i with
    | zero => exact ⟨e, herror, h⟩
    | succ i =>
      rw [Nat.add_comm i, ← Nat.add_assoc]
      exact htried.retried i (Nat.lt_of_succ_lt_succ hi)

theorem Ends.succ (haborted : provider.aborted attempt = false)
    (herror : provider.complete attempt = .error e) (h : e.Retryable)
    (hends : Ends provider left (attempt + 1) n result) :
    Ends provider (left + 1) attempt (n + 1) result := by
  cases hends with
  | answer response hanswer hlast =>
    refine .answer response ((answersFrom_succ haborted herror h response).mpr hanswer) ?_
    intro i hi r hr
    cases i with
    | zero =>
      rw [Nat.add_zero, herror] at hr
      cases hr
    | succ i =>
      rw [Nat.add_comm i, ← Nat.add_assoc] at hr
      exact hlast i (Nat.lt_of_succ_lt_succ hi) r hr
  | failure e' hnone hall =>
    refine .failure e' (fun response hresponse => hnone response
      ((answersFrom_succ haborted herror h response).mp hresponse)) ?_
    intro i hi
    cases i with
    | zero => exact ⟨e, herror⟩
    | succ i =>
      rw [Nat.add_comm i, ← Nat.add_assoc]
      exact hall i (Nat.lt_of_succ_lt_succ hi)

theorem triedFrom_one (haborted : provider.aborted attempt = false) :
    TriedFrom provider (left + 1) attempt 1 where
  bounded := Nat.succ_le_succ (Nat.zero_le left)
  notAborted := by
    intro i hi
    rw [Nat.lt_one_iff.mp hi]
    exact haborted
  retried := fun i hi => absurd hi (by omega)

def Gateway.after (g : Gateway) (slot : Slot) (n : ℕ) (waits : List Rat) : Gateway :=
  { g with invoked := g.invoked ++ List.replicate n slot, waited := g.waited ++ waits }

theorem Gateway.after_zero (g : Gateway) (slot : Slot) : g.after slot 0 [] = g := by
  simp [Gateway.after]

theorem Gateway.after_after (g : Gateway) (slot : Slot) (n m : ℕ) (waits more : List Rat) :
    (g.after slot n waits).after slot m more = g.after slot (n + m) (waits ++ more) := by
  simp only [Gateway.after, List.append_assoc, List.replicate_append_replicate]

theorem run_attempts : ∀ (left attempt : ℕ) (lastError : Thrown) (g : Gateway),
    ∃ n waits result,
      (attempts config slot provider left attempt lastError).run g =
        (result, g.after slot n waits) ∧
      TriedFrom provider left attempt n ∧ Ends provider left attempt n result
  | 0, attempt, lastError, g => by
    refine ⟨0, [], .error lastError, ?_, ⟨le_rfl, nofun, nofun⟩, ?_⟩
    · rw [attempts, Call.run_give, Gateway.after_zero]
    · exact .failure lastError (fun _ => answersFrom_zero) nofun
  | left + 1, attempt, lastError, g => by
    rw [attempts]
    cases haborted : provider.aborted attempt with
    | true =>
      refine ⟨0, [], .error abortErr, ?_, ⟨Nat.zero_le _, nofun, nofun⟩, ?_⟩
      · rw [if_pos rfl, Call.run_give, Gateway.after_zero]
      · refine .failure abortErr (fun response => ?_) nofun
        rintro ⟨n, -, hopen, -⟩
        have hzero := hopen 0 (Nat.zero_le n)
        rw [Nat.add_zero, haborted] at hzero
        cases hzero
    | false =>
      rw [if_neg Bool.false_ne_true, Call.run_update_bind]
      have hone : { g with invoked := g.invoked ++ [slot] } = g.after slot 1 [] := by
        simp [Gateway.after]
      rw [hone]
      cases hcomplete : provider.complete attempt with
      | ok response =>
        refine ⟨1, [], .ok response, rfl, triedFrom_one haborted, ?_⟩
        refine .answer response ⟨0, Nat.succ_pos left, ?_, nofun, hcomplete⟩ ?_
        · intro i hi
          rw [Nat.le_zero.mp hi]
          exact haborted
        · intro i hi r hr
          rw [Nat.lt_one_iff.mp hi, Nat.add_zero, hcomplete] at hr
          exact (Except.ok.inj hr).symm
      | error error =>
        dsimp only
        by_cases hretry : error.Retryable
        · have hgoes := hretry
          obtain ⟨hname, hdecision⟩ := hgoes
          rw [hname, if_neg Bool.false_ne_true, hdecision, if_neg (by decide)]
          -- the wait, if there is one, and the attempts that are left
          have hwaited : ∃ pause, ∀ next : Call (LLMResponse Args),
              (if left > 0 then
                Call.update (fun g => { g with waited := g.waited ++
                  [waitBefore config (shouldRetryError error) attempt] }) >>= fun _ => next
                else next).run (g.after slot 1 []) = next.run (g.after slot 1 pause) := by
            by_cases hleft : left > 0
            · refine ⟨[waitBefore config (shouldRetryError error) attempt], fun next => ?_⟩
              rw [if_pos hleft, Call.run_update_bind]
              simp only [Gateway.after, List.append_nil]
            · exact ⟨[], fun next => by rw [if_neg hleft]⟩
          obtain ⟨pause, hpause⟩ := hwaited
          obtain ⟨n, waits, result, hrun, htried, hends⟩ :=
            run_attempts left (attempt + 1) error (g.after slot 1 pause)
          rw [Gateway.after_after, Nat.add_comm 1] at hrun
          exact ⟨n + 1, pause ++ waits, result, (hpause _).trans hrun,
            htried.succ haborted hcomplete hretry, hends.succ haborted hcomplete hretry⟩
        · have hends : Ends provider (left + 1) attempt 1 (.error error) := by
            refine .failure error (not_answersFrom hcomplete hretry) fun i hi => ?_
            rw [Nat.lt_one_iff.mp hi]
            exact ⟨error, hcomplete⟩
          refine ⟨1, [], .error error, ?_, triedFrom_one haborted, hends⟩
          by_cases hname : error.isAbort = true
          · rw [if_pos hname, Call.run_give]
          · have hdecision : (shouldRetryError error).retry = false := by
              rw [← Bool.not_eq_true]
              exact fun htrue => hretry ⟨Bool.not_eq_true _ ▸ hname, htrue⟩
            rw [if_neg hname, if_pos hdecision, Call.run_give]

theorem Answers.unique {maxRetries : ℕ} {r r' : LLMResponse Args}
    (h : Answers provider maxRetries r) (h' : Answers provider maxRetries r') : r = r' := by
  obtain ⟨n, -, -, hretried, hlast⟩ := h
  obtain ⟨n', -, -, hretried', hlast'⟩ := h'
  rcases Nat.lt_trichotomy n n' with hlt | rfl | hlt
  · obtain ⟨e, he, -⟩ := hretried' n hlt
    rw [hlast] at he
    cases he
  · exact Except.ok.inj (hlast.symm.trans hlast')
  · obtain ⟨e, he, -⟩ := hretried n' hlt
    rw [hlast'] at he
    cases he

end Retries

/-! ## Books -/

section Books

variable {Args : Type} {config : GatewayConfig Args} {drawn : DrawnCompletion}
  {auditContext : AuditContext} {slot : Slot} {provider : LLMProvider Args}

def Gateway.booked (config : GatewayConfig Args) (entry : AuditEntry) (g : Gateway) : Gateway :=
  { g with
    auditMemory := g.auditMemory ++ [entry]
    persisted := g.persisted ++ if config.auditSink.isSome then [entry] else [] }

def Gateway.metered (usage : LLMUsage) (g : Gateway) : Gateway :=
  { g with metrics := g.metrics.add usage }

theorem run_persistAudit (entry : AuditEntry) (g : Gateway) :
    (persistAudit config entry).run g = (.ok (), g.booked config entry) := by
  rw [persistAudit]
  split
  · rename_i hsink
    simp [Gateway.booked, hsink]
  · rename_i record hsink
    rw [Call.run_update_bind]
    cases hrecord : record entry with
    | ok =>
      rw [Call.run_tryCatch_ok (Call.run_update_bind _)]
      simp [Gateway.booked, hsink]
    | error e =>
      rw [Call.run_tryCatch_error (Call.run_update_bind _)]
      simp [Gateway.booked, hsink]

theorem run_recordSuccess (response : LLMResponse Args) (g : Gateway) :
    (recordSuccess config drawn auditContext slot provider.name response).run g =
      (observeSuccess config (successEvent drawn slot provider.name response),
        (g.metered response.usage).booked config
          (successEntry drawn auditContext slot provider.name response)) := by
  rw [recordSuccess, Call.run_update_bind, Call.run_bind_ok (run_persistAudit _ _), Call.run_give]
  rfl

theorem run_recordFailure (providerName : String) (error : Thrown) (g : Gateway) :
    ∃ e, ((recordFailure config drawn auditContext providerName error >>= fun _ =>
        throw error : Call (LLMResponse Args))).run g =
      (.error e, g.booked config (failureEntry drawn auditContext providerName error)) := by
  have hbooked : ∀ r, observeFailure config
      { provider := providerName, model := "unknown",
        latencyMs := drawn.failure.now - drawn.startTime, error := getErrorMessage error } = r →
      (recordFailure config drawn auditContext providerName error).run g =
        (r, g.booked config (failureEntry drawn auditContext providerName error)) := by
    rintro r rfl
    rw [recordFailure, Call.run_bind_ok (run_persistAudit _ _), Call.run_give]
  cases hobserved : observeFailure config
      { provider := providerName, model := "unknown",
        latencyMs := drawn.failure.now - drawn.startTime, error := getErrorMessage error } with
  | ok => exact ⟨error, Call.run_bind_ok (hbooked _ hobserved)⟩
  | error e => exact ⟨e, Call.run_bind_error (hbooked _ hobserved)⟩

def Gateway.answeredWith (config : GatewayConfig Args) (drawn : DrawnCompletion)
    (auditContext : AuditContext) (slot : Slot) (provider : LLMProvider Args)
    (response : LLMResponse Args) (g : Gateway) : Gateway :=
  (g.metered response.usage).booked config
    (successEntry drawn auditContext slot provider.name response)

theorem run_answered (g : Gateway) : ∃ n waits, Tried provider config.maxRetries n ∧
    ((∃ response, Answers provider config.maxRetries response ∧
        (∀ i < n, ∀ r, provider.complete i = .ok r → r = response) ∧
        (answered config drawn auditContext slot provider).run g =
          ((observeSuccess config (successEvent drawn slot provider.name response)).map
              fun _ => response,
            (g.after slot n waits).answeredWith config drawn auditContext slot provider response)) ∨
      ∃ e, (∀ response, ¬ Answers provider config.maxRetries response) ∧
        (∀ i < n, ∃ e, provider.complete i = .error e) ∧
        (answered config drawn auditContext slot provider).run g =
          (.error e, g.after slot n waits)) := by
  obtain ⟨n, waits, result, hrun, htried, hends⟩ :=
    @run_attempts _ config slot provider config.maxRetries 0
      (.value "undefined") g
  refine ⟨n, waits, htried, ?_⟩
  cases hends with
  | answer response hanswer hlast =>
    refine Or.inl ⟨response, hanswer, fun i hi r hr => hlast i hi r ?_, ?_⟩
    · rw [Nat.zero_add]
      exact hr
    · rw [answered, callWithRetry, Call.run_bind_ok hrun]
      cases hobserved : observeSuccess config (successEvent drawn slot provider.name response) with
      | ok =>
        rw [Call.run_bind_ok (run_recordSuccess response _ |>.trans (by rw [hobserved])),
          Call.run_pure]
        rfl
      | error e =>
        rw [Call.run_bind_error (run_recordSuccess response _ |>.trans (by rw [hobserved]))]
        rfl
  | failure e hnone hall =>
    refine Or.inr ⟨e, hnone, fun i hi => ?_, ?_⟩
    · obtain ⟨e', he'⟩ := hall i hi
      rw [Nat.zero_add] at he'
      exact ⟨e', he'⟩
    · rw [answered, callWithRetry, Call.run_bind_error hrun]

/-! ## Accounts -/

structure Invoked (config : GatewayConfig Args) (result : Except Thrown (LLMResponse Args))
    (n m : ℕ) : Prop where
  primary : Tried config.primary config.maxRetries n
  fallback : ∀ fallback, config.fallback = some fallback → Tried fallback config.maxRetries m
  noFallback : config.fallback = none → m = 0
  failedBefore : 0 < m → ∀ i < n, ∃ e, config.primary.complete i = .error e
  primaryReturned : ∀ i < n, ∀ r, config.primary.complete i = .ok r → result = .ok r
  fallbackReturned : ∀ fallback, config.fallback = some fallback →
    ∀ i < m, ∀ r, fallback.complete i = .ok r → result = .ok r

structure Accounted (config : GatewayConfig Args) (g : Gateway)
    (result : Except Thrown (LLMResponse Args)) (g' : Gateway) : Prop where
  invoked : ∃ n m, g'.invoked =
      g.invoked ++ List.replicate n .primary ++ List.replicate m .fallback ∧
    Invoked config result n m
  audited : ∃ entry, g'.auditMemory = g.auditMemory ++ [entry] ∧
    g'.persisted = g.persisted ++ if config.auditSink.isSome then [entry] else []
  metered : g'.metrics = match result with
    | .ok response => g.metrics.add response.usage
    | .error _ => g.metrics

structure Quiet (config : GatewayConfig Args) (drawn : DrawnCompletion) : Prop where
  primary : ∀ response, Answers config.primary config.maxRetries response →
    observeSuccess config (successEvent drawn .primary config.primary.name response) = .ok ()
  fallback : (∀ response, ¬ Answers config.primary config.maxRetries response) →
    ∀ fallback, config.fallback = some fallback →
      ∀ response, Answers fallback config.maxRetries response →
        observeSuccess config (successEvent drawn .fallback fallback.name response) = .ok ()

variable {g : Gateway}

/-- What the outer `catch` does. -/
def caught (config : GatewayConfig Args) (drawn : DrawnCompletion) (auditContext : AuditContext)
    (primaryError : Thrown) : Call (LLMResponse Args) :=
  match config.fallback with
  | some fallback =>
    tryCatch (answered config drawn auditContext .fallback fallback) fun fallbackError => do
      recordFailure config drawn auditContext fallback.name fallbackError
      throw fallbackError
  | none => do
      recordFailure config drawn auditContext config.primary.name primaryError
      throw primaryError

theorem complete_eq : complete config drawn auditContext =
    tryCatch (answered config drawn auditContext .primary config.primary)
      (caught config drawn auditContext) := rfl

theorem caught_books (primaryError : Thrown) (g : Gateway) : ∃ entry more,
    ((caught config drawn auditContext primaryError).run g).2.auditMemory =
      g.auditMemory ++ entry :: more := by
  rw [caught]
  split
  · rename_i fallback hfallback
    obtain ⟨n, waits, -, h⟩ := @run_answered Args config drawn auditContext .fallback fallback g
    rcases h with ⟨response, -, -, hrun⟩ | ⟨e, -, -, hrun⟩
    · cases hobserved : observeSuccess config
        (successEvent drawn .fallback fallback.name response) with
      | ok =>
        rw [hobserved] at hrun
        rw [Call.run_tryCatch_ok hrun]
        exact ⟨_, [], rfl⟩
      | error e =>
        rw [hobserved] at hrun
        rw [Call.run_tryCatch_error hrun]
        obtain ⟨e', hfailed⟩ := @run_recordFailure Args config drawn auditContext fallback.name e
          ((g.after .fallback n waits).answeredWith config drawn auditContext .fallback fallback
            response)
        rw [hfailed]
        refine ⟨_, [_], (List.append_assoc _ _ _).trans rfl⟩
    · rw [Call.run_tryCatch_error hrun]
      obtain ⟨e', hfailed⟩ := @run_recordFailure Args config drawn auditContext fallback.name e
        (g.after .fallback n waits)
      rw [hfailed]
      exact ⟨_, [], rfl⟩
  · obtain ⟨e', hfailed⟩ := @run_recordFailure Args config drawn auditContext
      config.primary.name primaryError g
    rw [hfailed]
    exact ⟨_, [], rfl⟩

theorem not_accounted_of_two {result : Except Thrown (LLMResponse Args)} {g' : Gateway}
    {e₁ e₂ : AuditEntry} {more : List AuditEntry}
    (h : g'.auditMemory = g.auditMemory ++ e₁ :: e₂ :: more) :
    ¬ Accounted config g result g' := by
  intro haccounted
  obtain ⟨entry, hentry, -⟩ := haccounted.audited
  rw [h] at hentry
  have hlength := congrArg List.length (List.append_cancel_left hentry)
  simp at hlength

theorem accounted_primary {n : ℕ} {waits : List Rat} {response : LLMResponse Args}
    (htried : Tried config.primary config.maxRetries n)
    (hlast : ∀ i < n, ∀ r, config.primary.complete i = .ok r → r = response) :
    Accounted config g (.ok response)
      ((g.after .primary n waits).answeredWith config drawn auditContext .primary config.primary
        response) where
  invoked := by
    refine ⟨n, 0, (List.append_nil _).symm, htried, fun _ _ => ?_, fun _ => rfl, nofun, ?_, ?_⟩
    · exact ⟨Nat.zero_le _, nofun, nofun⟩
    · exact fun i hi r hr => congrArg Except.ok (hlast i hi r hr).symm
    · exact fun _ _ i hi => absurd hi (Nat.not_lt_zero i)
  audited := ⟨_, rfl, rfl⟩
  metered := rfl

theorem accounted_fallback {n m : ℕ} {waits more : List Rat} {response : LLMResponse Args}
    {fallback : LLMProvider Args} (hfallback : config.fallback = some fallback)
    (htried : Tried config.primary config.maxRetries n)
    (hall : ∀ i < n, ∃ e, config.primary.complete i = .error e)
    (htried' : Tried fallback config.maxRetries m)
    (hlast : ∀ i < m, ∀ r, fallback.complete i = .ok r → r = response) :
    Accounted config g (.ok response)
      (((g.after .primary n waits).after .fallback m more).answeredWith config drawn auditContext
        .fallback fallback response) where
  invoked := by
    refine ⟨n, m, rfl, htried, ?_, ?_, fun _ => hall, ?_, ?_⟩
    · intro other hother
      rw [hfallback] at hother
      exact Option.some.inj hother ▸ htried'
    · intro hnone
      rw [hfallback] at hnone
      cases hnone
    · intro i hi r hr
      obtain ⟨e, he⟩ := hall i hi
      rw [hr] at he
      cases he
    · intro other hother i hi r hr
      rw [hfallback] at hother
      obtain rfl := Option.some.inj hother
      exact congrArg Except.ok (hlast i hi r hr).symm
  audited := ⟨_, rfl, rfl⟩
  metered := rfl

theorem accounted_failure {n m : ℕ} {g' : Gateway} {entry : AuditEntry} {e : Thrown}
    (htried : Tried config.primary config.maxRetries n)
    (hall : ∀ i < n, ∃ e, config.primary.complete i = .error e)
    (hnone : config.fallback = none → m = 0)
    (hsome : ∀ fallback, config.fallback = some fallback → Tried fallback config.maxRetries m ∧
      ∀ i < m, ∃ e, fallback.complete i = .error e)
    (hinvoked : g'.invoked = g.invoked ++ List.replicate n .primary ++ List.replicate m .fallback)
    (haudit : g'.auditMemory = g.auditMemory) (hpersisted : g'.persisted = g.persisted)
    (hmetrics : g'.metrics = g.metrics) :
    Accounted config g (.error e) (g'.booked config entry) where
  invoked := by
    refine ⟨n, m, hinvoked, htried, fun f hf => (hsome f hf).1, hnone, fun _ => hall, ?_, ?_⟩
    · intro i hi r hr
      obtain ⟨e, he⟩ := hall i hi
      rw [hr] at he
      cases he
    · intro f hf i hi r hr
      obtain ⟨e, he⟩ := (hsome f hf).2 i hi
      rw [hr] at he
      cases he
  audited := by
    refine ⟨entry, ?_, ?_⟩
    · rw [Gateway.booked, haudit]
    · rw [Gateway.booked, hpersisted]
  metered := hmetrics

/-- **Accounts.** A call is accounted for once exactly if the observer does not throw on the
response that answers it. -/
theorem accounted_iff (config : GatewayConfig Args) (drawn : DrawnCompletion)
    (auditContext : AuditContext) (g : Gateway) :
    Accounted config g ((complete config drawn auditContext).run g).1
      ((complete config drawn auditContext).run g).2 ↔ Quiet config drawn := by
  rw [complete_eq]
  obtain ⟨n, waits, htried, h⟩ := @run_answered Args config drawn auditContext .primary
    config.primary g
  rcases h with ⟨response, hanswers, hlast, hrun⟩ | ⟨e, hsilent, hall, hrun⟩
  · cases hobserved : observeSuccess config
      (successEvent drawn .primary config.primary.name response) with
    | ok =>
      rw [hobserved] at hrun
      rw [Call.run_tryCatch_ok hrun]
      refine iff_of_true (accounted_primary htried hlast) ⟨fun r hr => ?_, fun hnone => ?_⟩
      · rw [hr.unique hanswers]
        exact hobserved
      · exact absurd hanswers (hnone response)
    | error e =>
      -- what the observer throws is taken for a failure of the primary
      rw [hobserved] at hrun
      rw [Call.run_tryCatch_error hrun]
      refine iff_of_false ?_ fun hquiet => ?_
      · obtain ⟨entry, more, hbooks⟩ := @caught_books Args config drawn auditContext e
          ((g.after .primary n waits).answeredWith config drawn auditContext .primary
            config.primary response)
        exact not_accounted_of_two (hbooks.trans (List.append_assoc _ _ _))
      · rw [hquiet.primary response hanswers] at hobserved
        cases hobserved
  · rw [Call.run_tryCatch_error hrun, caught]
    cases hfallback : config.fallback with
    | none =>
      dsimp only
      obtain ⟨e', hfailed⟩ := @run_recordFailure Args config drawn auditContext
        config.primary.name e (g.after .primary n waits)
      rw [hfailed]
      refine iff_of_true ?_ ⟨fun r hr => absurd hr (hsilent r), fun _ f hf => ?_⟩
      · refine accounted_failure (m := 0) htried hall (fun _ => rfl) ?_
          (List.append_nil _).symm rfl rfl rfl
        intro f hf
        rw [hfallback] at hf
        cases hf
      · rw [hfallback] at hf
        cases hf
    | some fallback =>
      dsimp only
      obtain ⟨m, more, htried', h⟩ := @run_answered Args config drawn auditContext .fallback
        fallback (g.after .primary n waits)
      rcases h with ⟨response, hanswers, hlast, hrun'⟩ | ⟨e₂, hsilent', hall', hrun'⟩
      · cases hobserved : observeSuccess config
          (successEvent drawn .fallback fallback.name response) with
        | ok =>
          rw [hobserved] at hrun'
          rw [Call.run_tryCatch_ok hrun']
          refine iff_of_true (accounted_fallback hfallback htried hall htried' hlast)
            ⟨fun r hr => absurd hr (hsilent r), fun _ f hf r hr => ?_⟩
          rw [hfallback] at hf
          obtain rfl := Option.some.inj hf
          rw [hr.unique hanswers]
          exact hobserved
        | error e₃ =>
          rw [hobserved] at hrun'
          rw [Call.run_tryCatch_error hrun']
          obtain ⟨e', hfailed⟩ := @run_recordFailure Args config drawn auditContext
            fallback.name e₃
            (((g.after .primary n waits).after .fallback m more).answeredWith config drawn
              auditContext .fallback fallback response)
          rw [hfailed]
          refine iff_of_false (not_accounted_of_two (List.append_assoc _ _ _)) fun hquiet => ?_
          rw [hquiet.fallback hsilent fallback hfallback response hanswers] at hobserved
          cases hobserved
      · rw [Call.run_tryCatch_error hrun']
        obtain ⟨e', hfailed⟩ := @run_recordFailure Args config drawn auditContext
          fallback.name e₂ ((g.after .primary n waits).after .fallback m more)
        rw [hfailed]
        refine iff_of_true ?_ ⟨fun r hr => absurd hr (hsilent r), fun _ f hf r hr => ?_⟩
        · refine accounted_failure htried hall ?_ ?_ rfl rfl rfl rfl
          · intro hnone
            rw [hfallback] at hnone
            cases hnone
          · intro f hf
            rw [hfallback] at hf
            exact Option.some.inj hf ▸ ⟨htried', hall'⟩
        · rw [hfallback] at hf
          obtain rfl := Option.some.inj hf
          exact absurd hr (hsilent' r)

end Books

def pong : LLMResponse Unit where
  content := "pong"
  usage := ⟨12, 3, 15⟩
  model := "gpt-4o"

def countedTwice : GatewayConfig Unit where
  primary := ⟨"openai", fun _ => .ok pong, fun _ => false⟩
  fallback := some ⟨"gemini", fun _ => .ok pong, fun _ => false⟩
  metricsObserver := some
    { recordSuccess := some fun _ => .error (.error "Error" "Value is not a valid number: NaN") }

def drawnPong : DrawnCompletion where
  promptHash := "5d41402a"
  startTime := 1000
  requestedAt := "1970-01-01T00:00:01.000Z"
  toLowerCase := id
  success := fun _ => ⟨"a1", 1400⟩
  failure := ⟨"a2", 1500⟩

/-- The answer is booked, the fallback is asked as well, and a failure is booked and thrown. -/
theorem answer_counted_twice :
    ¬ ∀ (config : GatewayConfig Unit) (drawn : DrawnCompletion) (auditContext : AuditContext)
      (g : Gateway), Accounted config g ((complete config drawn auditContext).run g).1
        ((complete config drawn auditContext).run g).2 := by
  intro hall
  obtain ⟨entry, hentry, -⟩ := (hall countedTwice drawnPong {} {}).audited
  have hlength : ((complete countedTwice drawnPong {}).run {}).2.auditMemory.length = 1 :=
    congrArg List.length hentry
  exact absurd hlength (by decide)

end OpenObs.LlmGateway
