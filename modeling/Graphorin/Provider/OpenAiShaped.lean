import Graphorin.Provider.Events
import Graphorin.Lib.OrderedMap

namespace Graphorin.Provider

open Audit RunState Lib

/-! One answer of a server that speaks the OpenAI wire format: whole, and as a stream of
chunks. -/

structure OpenAIUsage where
  prompt_tokens : Option Rat := none
  completion_tokens : Option Rat := none
  total_tokens : Option Rat := none
  reasoning_tokens : Option Rat := none
  cached_tokens : Option Rat := none
  deriving DecidableEq

inductive UsageField
  | absent
  | null
  | given (usage : OpenAIUsage)
  deriving DecidableEq

/-- One entry of `delta.tool_calls`. -/
structure ToolCallFragment where
  index : Option Nat := none
  id : Option JsText := none
  name : Option JsText := none
  arguments : Option JsText := none
  deriving DecidableEq

structure Delta where
  content : Option JsText := none
  reasoning_content : Option JsText := none
  tool_calls : List ToolCallFragment := []
  deriving DecidableEq

/-- A finish reason that is null counts as none. -/
structure ChunkChoice where
  delta : Delta := {}
  finish_reason : Option JsText := none
  deriving DecidableEq

structure OpenAIChunk where
  choice : Option ChunkChoice := none
  usage : UsageField := .absent
  deriving DecidableEq

structure MessageToolCall where
  id : JsText
  name : JsText
  arguments : JsText
  deriving DecidableEq

/-- The first choice of an answer that was not streamed, and its usage. -/
structure OpenAIMessage where
  content : Option JsText := none
  tool_calls : Option (List MessageToolCall) := none
  finish_reason : Option JsText := none
  usage : UsageField := .absent

def mapFinishReason (value : Option JsText) : FinishReason :=
  match value with
  | none => .stop
  | some reason =>
    if reason = ascii "stop" then .stop
    else if reason = ascii "length" then .length
    else if reason = ascii "content-filter" then .contentFilter
    else if reason = ascii "content_filter" then .contentFilter
    else if reason = ascii "tool_calls" then .toolCalls
    else if reason = ascii "function_call" then .toolCalls
    else .stop

def mapOpenAIUsage : UsageField → Option Usage
  | .absent => none
  | .null => none
  | .given usage =>
    let promptTokens := usage.prompt_tokens.getD 0
    let completionTokens := usage.completion_tokens.getD 0
    some
      { promptTokens
        completionTokens
        totalTokens := usage.total_tokens.getD (promptTokens + completionTokens)
        reasoningTokens := usage.reasoning_tokens
        cachedReadTokens := usage.cached_tokens.filter fun cached => decide (0 < cached) }

section Reading

variable (host : Host)

def parseFinalArgs (raw : JsText) : Json :=
  if raw = [] then .obj []
  else (parse host raw).getD (.str raw)

structure ToolCall where
  toolCallId : JsText
  toolName : JsText
  args : Json

structure ProviderResponse where
  text : Option JsText
  toolCalls : Option (List ToolCall)
  usage : Usage
  finishReason : FinishReason

def toolCallOf (call : MessageToolCall) : ToolCall :=
  { toolCallId := call.id
    toolName := call.name
    args := parseFinalArgs host call.arguments }

def generateOpenAIShaped (message : OpenAIMessage) : ProviderResponse :=
  { text := message.content
    toolCalls := message.tool_calls.map fun calls => calls.map (toolCallOf host)
    usage := (mapOpenAIUsage message.usage).getD zeroUsage
    finishReason := mapFinishReason message.finish_reason }

structure Slot where
  id : JsText := []
  name : JsText := []
  args : JsText := []
  emittedStart : Bool := false
  deriving DecidableEq

structure StreamState where
  finishReason : FinishReason := .stop
  usage : Option Usage := none
  toolCallBuffer : OrderedMap Nat Slot := .empty

def slotAt (buffer : OrderedMap Nat Slot) (index : Nat) : Slot :=
  (buffer.get index).getD {}

/-- What a fragment makes of its slot. -/
def Slot.take (slot : Slot) (fragment : ToolCallFragment) : Slot :=
  { slot with
    id := match fragment.id with
      | some id => if id = [] then slot.id else id
      | none => slot.id
    name := fragment.name.getD slot.name
    args := slot.args ++ fragment.arguments.getD [] }

/-- Ready to be announced, and not yet. -/
def Slot.starts (slot : Slot) : Bool :=
  !slot.emittedStart && !slot.id.isEmpty && !slot.name.isEmpty

def takeFragment (slot : Slot) (fragment : ToolCallFragment) : Slot × List ProviderEvent :=
  let slot := slot.take fragment
  let start := if slot.starts then [.toolCallStart slot.id slot.name] else []
  let delta :=
    match fragment.arguments with
    | some [] | none => []
    | some argsDelta => [.toolCallInputDelta slot.id argsDelta]
  ({ slot with emittedStart := slot.emittedStart || slot.starts }, start ++ delta)

def takeFragments (buffer : OrderedMap Nat Slot) :
    List ToolCallFragment → OrderedMap Nat Slot × List ProviderEvent
  | [] => (buffer, [])
  | fragment :: rest =>
    let index := fragment.index.getD 0
    let taken := takeFragment (slotAt buffer index) fragment
    let later := takeFragments (buffer.set index taken.1) rest
    (later.1, taken.2 ++ later.2)

def textEvents : Option JsText → List ProviderEvent
  | some [] | none => []
  | some delta => [.textDelta delta]

def reasoningEvents : Option JsText → List ProviderEvent
  | some [] | none => []
  | some delta => [.reasoningDelta delta]

def endEvent (entry : Nat × Slot) : ProviderEvent :=
  .toolCallEnd entry.2.id (parseFinalArgs host entry.2.args)

/-- A usage that is there, if only as null, replaces the one before. -/
def takeUsage (usage : Option Usage) : UsageField → Option Usage
  | .absent => usage
  | field => mapOpenAIUsage field

def takeChunk (state : StreamState) (chunk : OpenAIChunk) :
    StreamState × List ProviderEvent :=
  let usage := takeUsage state.usage chunk.usage
  match chunk.choice with
  | none => ({ state with usage }, [])
  | some choice =>
    let taken := takeFragments state.toolCallBuffer choice.delta.tool_calls
    let shown := textEvents choice.delta.content ++
      reasoningEvents choice.delta.reasoning_content ++ taken.2
    match choice.finish_reason with
    | none => ({ state with usage, toolCallBuffer := taken.1 }, shown)
    | some reason =>
      ({ finishReason := mapFinishReason (some reason), usage, toolCallBuffer := taken.1 },
        shown ++ taken.1.entries.map (endEvent host))

def takeChunks (state : StreamState) :
    List OpenAIChunk → StreamState × List ProviderEvent
  | [] => (state, [])
  | chunk :: rest =>
    let taken := takeChunk host state chunk
    let later := takeChunks taken.1 rest
    (later.1, taken.2 ++ later.2)

/-- The stream of a call that is not aborted, from the chunks up to `[DONE]`. -/
def streamOpenAIShaped (providerName modelId : JsText) (chunks : List OpenAIChunk) :
    List ProviderEvent :=
  let taken := takeChunks host {} chunks
  .streamStart providerName modelId :: taken.2 ++
    [.finish taken.1.finishReason (taken.1.usage.getD zeroUsage)]

structure ProviderEventCollector where
  textBuffer : JsText := []
  reasoningBuffer : JsText := []
  /-- The names of the calls that started, the latest first. -/
  calls : List (JsText × JsText) := []
  finalCalls : List ToolCall := []
  finished : Option (FinishReason × Usage) := none

def handleProviderEvent (state : ProviderEventCollector) :
    ProviderEvent → ProviderEventCollector
  | .reasoningDelta delta => { state with reasoningBuffer := state.reasoningBuffer ++ delta }
  | .reasoningEnd => { state with reasoningBuffer := [] }
  | .textDelta delta => { state with textBuffer := state.textBuffer ++ delta }
  | .toolCallStart toolCallId toolName =>
    { state with calls := (toolCallId, toolName) :: state.calls }
  | .toolCallEnd toolCallId finalArgs =>
    match state.calls.find? fun call => call.1 == toolCallId with
    | some (_, toolName) =>
      { state with
        finalCalls := state.finalCalls ++ [{ toolCallId, toolName, args := finalArgs }] }
    | none => state
  | .finish finishReason usage => { state with finished := some (finishReason, usage) }
  | _ => state

def collect (events : List ProviderEvent) : ProviderEventCollector :=
  events.foldl handleProviderEvent {}

end Reading

end Graphorin.Provider
