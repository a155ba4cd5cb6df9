import Graphorin.Agent.Types
import Graphorin.Lib.OrderedMap
import Graphorin.Provider.Usage

/-!
# The fallback chain of a step

A step's request goes to the primary provider and, on eligible errors, to the ones behind it.
A request that is over-window is sent once more after an emergency compaction; the loop takes
its index back for it.
-/

namespace Graphorin.Agent.Fallback

open Js (JsValue)
open Graphorin.Lib (OrderedMap)
open Provider (Cost Usage zeroUsage)

inductive ProviderErrorKind
  | rateLimit
  | capacity
  | contextLength
  | transient
  | invalidRequest
  | unauthorized
  | contentFilter
  | unknown
  deriving DecidableEq

def ProviderErrorKind.text : ProviderErrorKind → String
  | .rateLimit => "rate-limit"
  | .capacity => "capacity"
  | .contextLength => "context-length"
  | .transient => "transient"
  | .invalidRequest => "invalid-request"
  | .unauthorized => "unauthorized"
  | .contentFilter => "content-filter"
  | .unknown => "unknown"

structure ProviderError where
  kind : ProviderErrorKind
  message : String
  deriving DecidableEq

inductive FinishReason
  | stop
  | length
  | toolCalls
  | contentFilter
  | error
  | aborted
  deriving DecidableEq

def FinishReason.text : FinishReason → String
  | .stop => "stop"
  | .length => "length"
  | .toolCalls => "tool-calls"
  | .contentFilter => "content-filter"
  | .error => "error"
  | .aborted => "aborted"

def optionalSum : Option Rat → Option Rat → Option Rat
  | none, none => none
  | first, second => some (first.getD 0 + second.getD 0)

def addCost : Option Cost → Option Cost → Option Cost
  | none, second => second
  | some first, none => some first
  | some first, some second =>
    if second.currency = first.currency then
      some { first with amount := first.amount + second.amount }
    else some first

/-- `addUsage`, and what `accumulateUsage` leaves in its target -/
def addUsage (first second : Usage) : Usage where
  promptTokens := first.promptTokens + second.promptTokens
  completionTokens := first.completionTokens + second.completionTokens
  totalTokens := first.totalTokens + second.totalTokens
  reasoningTokens := optionalSum first.reasoningTokens second.reasoningTokens
  cachedReadTokens := optionalSum first.cachedReadTokens second.cachedReadTokens
  cacheWriteTokens := optionalSum first.cacheWriteTokens second.cacheWriteTokens
  cost := addCost first.cost second.cost

inductive ProviderEvent
  | streamStart
  | reasoningDelta (delta : String)
  | reasoningEnd (signature : Option JsValue)
  | textDelta (delta : String)
  | toolCallStart (toolCallId toolName : String)
  | toolCallInputDelta (toolCallId argsDelta : String)
  | toolCallEnd (toolCallId : String) (finalArgs : JsValue)
  | file (mimeType : String) (data : List UInt8)
  | source (uri : String) (title : Option String)
  | finish (finishReason : FinishReason) (usage : Usage)
  | error (error : ProviderError)

inductive AgentFallbackReason
  | rateLimit
  | capacity
  | contextLength
  | transient
  deriving DecidableEq

/-- `agent.model.fellback` -/
structure ModelFellback where
  fromModel : String
  toModel : String
  reason : AgentFallbackReason
  stepNumber : Nat
  attempt : Nat
  deriving DecidableEq

inductive AgentEvent
  | reasoningDelta (delta : String)
  | textDelta (delta : String)
  | toolCallStart (toolCallId toolName : String)
  | toolCallDelta (toolCallId argsDelta : String)
  | toolCallEnd (toolCallId : String) (finalArgs : JsValue)
  | fileGenerated (mimeType : String) (data : List UInt8)
  | sourceCited (uri : String) (title : Option String)
  | toolCallIncomplete (toolCallId toolName : String) (finishReason : FinishReason)
      (argsPrefix : String)
  | modelFellback (event : ModelFellback)
  | contextCompacted (beforeTokens afterTokens summaryTokens : Rat)
  | error (error : RunError)

structure ToolCallAccumulator where
  toolCallId : String
  toolName : String
  argsBuffer : String
  deriving DecidableEq

structure ReasoningContent where
  text : String
  signature : Option JsValue := none
  deriving DecidableEq

structure ProviderEventCollector where
  textBuffer : String := ""
  reasoningBuffer : String := ""
  reasoningParts : List ReasoningContent := []
  calls : OrderedMap String ToolCallAccumulator := .empty
  finalCalls : List ToolCall := []

structure Attempt where
  evState : ProviderEventCollector := {}
  providerError : Option ProviderError := none
  finishReason : Option FinishReason := none
  completed : Bool := false
  usage : Usage := zeroUsage

/-- `handleProviderEvent`, with what the loop does with its outcome. -/
def handleProviderEvent (attempt : Attempt) : ProviderEvent → Attempt × List AgentEvent
  | .streamStart => (attempt, [])
  | .reasoningDelta delta =>
    ({ attempt with evState := { attempt.evState with
        reasoningBuffer := attempt.evState.reasoningBuffer ++ delta } },
      [.reasoningDelta delta])
  | .reasoningEnd signature =>
    ({ attempt with evState := { attempt.evState with
        reasoningBuffer := ""
        reasoningParts := attempt.evState.reasoningParts ++
          [⟨attempt.evState.reasoningBuffer, signature⟩] } }, [])
  | .textDelta delta =>
    ({ attempt with evState := { attempt.evState with
        textBuffer := attempt.evState.textBuffer ++ delta } }, [.textDelta delta])
  | .toolCallStart toolCallId toolName =>
    ({ attempt with evState := { attempt.evState with
        calls := attempt.evState.calls.set toolCallId ⟨toolCallId, toolName, ""⟩ } },
      [.toolCallStart toolCallId toolName])
  | .toolCallInputDelta toolCallId argsDelta =>
    ({ attempt with evState := { attempt.evState with
        calls := attempt.evState.calls.modify toolCallId fun acc =>
          { acc with argsBuffer := acc.argsBuffer ++ argsDelta } } },
      [.toolCallDelta toolCallId argsDelta])
  | .toolCallEnd toolCallId finalArgs =>
    match attempt.evState.calls.get toolCallId with
    | none => (attempt, [])
    | some acc =>
      ({ attempt with evState := { attempt.evState with
          finalCalls := attempt.evState.finalCalls ++
            [⟨toolCallId, acc.toolName, finalArgs⟩] } },
        [.toolCallEnd toolCallId finalArgs])
  | .file mimeType data => (attempt, [.fileGenerated mimeType data])
  | .source uri title => (attempt, [.sourceCited uri title])
  | .finish finishReason usage =>
    ({ attempt with
        usage := addUsage attempt.usage usage
        completed := true
        finishReason := some finishReason }, [])
  | .error error => ({ attempt with providerError := some error }, [])

/-- A thrown value, by what is looked into: its `errorKind` and `kind` where they are
strings, its message, and whether it is the runtime's own `run-aborted`. -/
structure Cause where
  errorKind : Option String := none
  kind : Option String := none
  message : String
  runAborted : Bool := false

def canonicalProviderErrorKind : String → Option ProviderErrorKind
  | "rate-limit" => some .rateLimit
  | "capacity" => some .capacity
  | "context-length" => some .contextLength
  | "transient" => some .transient
  | "invalid-request" => some .invalidRequest
  | "unauthorized" => some .unauthorized
  | "content-filter" => some .contentFilter
  | _ => none

def classifyThrownProviderErrorKind (cause : Cause) : ProviderErrorKind :=
  match cause.errorKind.bind canonicalProviderErrorKind with
  | some kind => kind
  | none => if cause.kind = some "rate-limit-exceeded" then .rateLimit else .unknown

/-- One call of `stream`: its events, each with whether the run is being aborted without a
drain when it arrives, and how it ends; `aborted` is the signal when it throws. -/
structure Play where
  events : List (ProviderEvent × Bool) := []
  thrown : Option Cause := none
  aborted : Bool := false

/-- The `for await` loop; the flag says that it was broken off. -/
def streamEvents : List (ProviderEvent × Bool) → Attempt → Attempt × List AgentEvent × Bool
  | [], attempt => (attempt, [], false)
  | (event, aborted) :: rest, attempt =>
    if aborted then (attempt, [], true)
    else
      let out := handleProviderEvent attempt event
      let streamed := streamEvents rest out.1
      (streamed.1, out.2 ++ streamed.2.1, streamed.2.2)

inductive Verdict
  | interrupted
  | failed (error : ProviderError)
  | incomplete (unclosed : List ToolCallAccumulator)
  | completed
  | silent

def unclosedCalls (evState : ProviderEventCollector) : List ToolCallAccumulator :=
  (evState.calls.entries.map Prod.snd).filter fun acc =>
    !(evState.finalCalls.map ToolCall.toolCallId).contains acc.toolCallId

def Attempt.verdict (attempt : Attempt) : Verdict :=
  match attempt.providerError with
  | some error => .failed error
  | none =>
    if attempt.completed then
      let unclosed := unclosedCalls attempt.evState
      if unclosed = [] then .completed else .incomplete unclosed
    else .silent

structure AttemptRun where
  attempt : Attempt
  events : List AgentEvent
  verdict : Verdict

def runAttempt (play : Play) : AttemptRun :=
  let streamed := streamEvents play.events {}
  let attempt := streamed.1
  if streamed.2.2 then ⟨attempt, streamed.2.1, .interrupted⟩
  else
    match play.thrown with
    | none => ⟨attempt, streamed.2.1, attempt.verdict⟩
    | some cause =>
      if play.aborted || cause.runAborted then ⟨attempt, streamed.2.1, .interrupted⟩
      else
        let error := ⟨classifyThrownProviderErrorKind cause, cause.message⟩
        ⟨{ attempt with providerError := some error }, streamed.2.1, .failed error⟩

structure AgentFallbackPolicy where
  rateLimitEligible : Bool := true
  capacityEligible : Bool := true
  contextLengthEligible : Bool := true
  transientEligible : Bool := false
  deriving DecidableEq

def isAgentFallbackEligible (error : ProviderError) (policy : AgentFallbackPolicy) :
    Option AgentFallbackReason :=
  match error.kind with
  | .rateLimit => if policy.rateLimitEligible then some .rateLimit else none
  | .capacity => if policy.capacityEligible then some .capacity else none
  | .contextLength => if policy.contextLengthEligible then some .contextLength else none
  | .transient => if policy.transientEligible then some .transient else none
  | .invalidRequest => none
  | .unauthorized => none
  | .contentFilter => none
  | .unknown => none

structure ProviderRequest where
  messages : List Message
  /-- The other fields, which no retry changes. -/
  rest : JsValue

structure CompactionEnvelope where
  trimmedMessages : List Message
  droppedMessageIndices : List Nat
  essentials : String
  beforeTokens : Rat
  afterTokens : Rat
  summaryTokens : Rat

/-- `compactNow` of the run's memory, with 2 recent turns kept: of the prefix and the body,
`none` when it rejects. -/
structure CompactionRunEnv where
  compactNow : Option (List Message → List Message → Option CompactionEnvelope)
  secret : Bool
  systemPrefixLength : Nat

def spliceCompacted (systemPrefixLength : Nat) (envelope : CompactionEnvelope)
    (messages : List Message) : List Message :=
  messages.take systemPrefixLength ++ envelope.trimmedMessages ++
    if envelope.essentials = "" then [] else [.system envelope.essentials]

/-- The shrunk buffer with the event of it, or `none`. -/
def tryEmergencyCompact (env : CompactionRunEnv) (messages : List Message) :
    Option (List Message × AgentEvent) :=
  if env.secret then none
  else
    env.compactNow.bind fun compactNow =>
      (compactNow (messages.take env.systemPrefixLength)
          (messages.drop env.systemPrefixLength)).bind fun envelope =>
        if envelope.droppedMessageIndices = [] then none
        else some (spliceCompacted env.systemPrefixLength envelope messages,
          .contextCompacted envelope.beforeTokens envelope.afterTokens envelope.summaryTokens)

structure Provider where
  modelId : String
  /-- What a call with this request streams, after so many calls of the step. -/
  stream : ProviderRequest → Nat → Play

structure FallbackChainEnv where
  messages : List Message
  compaction : CompactionRunEnv
  fallbackPolicy : AgentFallbackPolicy := {}
  structuredInstruction : Option String := none
  planRecitation : Option String := none
  fallbackChain : List Provider
  baseRequest : ProviderRequest
  resolvedModelId : String
  stepNumber : Nat

def buildStepMessages (env : FallbackChainEnv) (messages : List Message) : List Message :=
  messages ++ (env.structuredInstruction.map Message.system).toList ++
    (env.planRecitation.map Message.system).toList

structure ProviderChainOutcome where
  failed : Bool := false
  modelSucceeded : Bool := false
  textBuffer : String := ""
  finalCalls : List ToolCall := []
  stepReasoningParts : List ReasoningContent := []
  stepUsage : Usage := zeroUsage
  lastModelId : String
  finishReason : Option FinishReason := none

/-- The locals of the loop, with the events so far and the calls of `stream`: the position in
the chain and the request of each. -/
structure Chain where
  chainIdx : Nat := 0
  attempt : Nat := 0
  lastModelId : String
  lastError : Option ProviderError := none
  requestForStep : ProviderRequest
  emergencyCompactTried : Bool := false
  events : List AgentEvent := []
  calls : List (Nat × ProviderRequest) := []

/-- What the generator returns and leaves behind: `error` is the one recorded on the run. -/
structure ChainRun where
  outcome : ProviderChainOutcome
  events : List AgentEvent
  calls : List (Nat × ProviderRequest)
  error : Option RunError := none

def Chain.ends (chain : Chain) (outcome : ProviderChainOutcome) : ChainRun :=
  { outcome, events := chain.events, calls := chain.calls }

def Chain.fails (chain : Chain) (usage : Usage) (error : RunError) : ChainRun where
  outcome := { failed := true, stepUsage := usage, lastModelId := chain.lastModelId }
  events := chain.events ++ [.error error]
  calls := chain.calls
  error := some error

def Chain.enter (env : FallbackChainEnv) (chain : Chain) (candidate : Provider) : Chain :=
  if 0 < chain.chainIdx then
    { chain with
      attempt := chain.attempt + 1
      lastModelId := candidate.modelId
      events := chain.events ++ [.modelFellback
        { fromModel := chain.lastModelId
          toModel := candidate.modelId
          reason :=
            (chain.lastError.bind fun error =>
              isAgentFallbackEligible error env.fallbackPolicy).getD .transient
          stepNumber := env.stepNumber
          attempt := chain.attempt + 1 }] }
  else chain

def Chain.call (env : FallbackChainEnv) (chain : Chain) (candidate : Provider) : AttemptRun :=
  runAttempt (candidate.stream (chain.enter env candidate).requestForStep chain.calls.length)

/-- The chain after a call: what it streamed is out. -/
def Chain.called (env : FallbackChainEnv) (chain : Chain) (candidate : Provider) : Chain :=
  let entered := chain.enter env candidate
  { entered with
    events := entered.events ++ (chain.call env candidate).events
    calls := entered.calls ++ [(chain.chainIdx, entered.requestForStep)] }

def reasoningParts (evState : ProviderEventCollector) : List ReasoningContent :=
  let tail : List ReasoningContent :=
    if evState.reasoningBuffer = "" then [] else [⟨evState.reasoningBuffer, none⟩]
  if evState.reasoningParts = [] then tail else evState.reasoningParts ++ tail

def incompleteMessage (reason : FinishReason) (unclosed : List ToolCallAccumulator) : String :=
  "provider stream finished ('" ++ reason.text ++ "') with " ++ toString unclosed.length ++
    " unfinished tool call(s): " ++
    ", ".intercalate (unclosed.map ToolCallAccumulator.toolName) ++
    ". The tool was never executed; raise the output-token budget (maxTokens) or simplify " ++
    "the tool arguments."

def ToolCallAccumulator.cut (reason : FinishReason) (acc : ToolCallAccumulator) : AgentEvent :=
  .toolCallIncomplete acc.toolCallId acc.toolName reason acc.argsBuffer

def Chain.settleError (env : FallbackChainEnv) (chain : Chain) (error : ProviderError) :
    Chain ⊕ ChainRun :=
  if isAgentFallbackEligible error env.fallbackPolicy = none ∨
      chain.chainIdx + 1 = env.fallbackChain.length then
    .inr (chain.fails zeroUsage ⟨error.message, error.kind.text⟩)
  else .inl { chain with chainIdx := chain.chainIdx + 1 }

def Chain.step (env : FallbackChainEnv) (chain : Chain) : Chain ⊕ ChainRun :=
  match env.fallbackChain[chain.chainIdx]? with
  | none => .inr (chain.ends { lastModelId := chain.lastModelId })
  | some candidate =>
    let run := chain.call env candidate
    let called := chain.called env candidate
    match run.verdict with
    | .interrupted => .inr (called.ends { lastModelId := called.lastModelId })
    | .failed error =>
      let failed := { called with lastError := some error }
      if error.kind = .contextLength ∧ failed.emergencyCompactTried = false then
        let tried := { failed with emergencyCompactTried := true }
        match tryEmergencyCompact env.compaction env.messages with
        | some (messages, event) =>
          -- The same candidate once more: the index is taken back.
          .inl { tried with
            events := tried.events ++ [event]
            requestForStep :=
              { env.baseRequest with messages := buildStepMessages env messages } }
        | none => tried.settleError env error
      else failed.settleError env error
    | .incomplete unclosed =>
      let reason := run.attempt.finishReason.getD .stop
      let cut := { called with
        events := called.events ++ unclosed.map (ToolCallAccumulator.cut reason) }
      .inr (cut.fails (addUsage zeroUsage run.attempt.usage)
        ⟨incompleteMessage reason unclosed, "incomplete-tool-call"⟩)
    | .completed =>
      .inr (called.ends
        { modelSucceeded := true
          textBuffer := run.attempt.evState.textBuffer
          finalCalls := run.attempt.evState.finalCalls
          stepReasoningParts := reasoningParts run.attempt.evState
          stepUsage := addUsage zeroUsage run.attempt.usage
          lastModelId := called.lastModelId
          finishReason := run.attempt.finishReason })
    | .silent => .inl { called with chainIdx := called.chainIdx + 1 }

/-- The loop, `none` when the fuel does not last. -/
def Chain.walk (env : FallbackChainEnv) : Nat → Chain → Option ChainRun
  | 0, _ => none
  | fuel + 1, chain =>
    match chain.step env with
    | .inl chain => chain.walk env fuel
    | .inr run => some run

def Chain.start (env : FallbackChainEnv) : Chain :=
  { lastModelId := env.resolvedModelId, requestForStep := env.baseRequest }

def runProviderFallbackChain (env : FallbackChainEnv) : Option ChainRun :=
  (Chain.start env).walk env (env.fallbackChain.length + 2)

end Graphorin.Agent.Fallback
