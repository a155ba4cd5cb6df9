import Graphorin.Agent.Executor
import Graphorin.Js.Number

namespace Graphorin.Tools

open Graphorin.Agent (ToolCall ToolError frozenCompleted renderToolErrorMessage renderOutput)

/-! A batch of tool calls: the sequential ones one after the other, then the rest
as many at a time as the limit allows. -/

/-- `maxParallelTools`, any number. -/
abbrev Limit := Js.Number

/-- `opts.maxParallelTools ?? 8` -/
def maxParallelTools (option : Option Limit) : Limit := option.getD (.finite 8)

structure ResultHandle where
  uri : String
  preview : String
  bytes : Option Nat

/-- The output of a tool that ran: a string, or a value of any other type. -/
inductive ToolOutput (δ : Type)
  | text (value : String)
  | other (value : δ)

inductive Outcome (δ : Type)
  | success (output : ToolOutput δ) (resultHandle : Option ResultHandle)
  | error (toolError : ToolError)

structure Completed (δ : Type) where
  call : ToolCall
  outcome : Outcome δ

/-- What `executeOne` comes to: its outcome, or what it was rejected with. -/
abbrev Answer (δ ε : Type) := Except ε (Outcome δ)

inductive Stage (δ ε : Type)
  | waiting
  | running
  | settled (answer : Answer δ ε)
  | stored (answer : Answer δ ε)
  | done (answer : Answer δ ε)

namespace Stage

variable {δ ε : Type}

def isRunning : Stage δ ε → Bool
  | .running => true
  | _ => false

/-- The stages between the two updates of `inFlight`. -/
def counted : Stage δ ε → Bool
  | .running | .settled _ | .stored _ => true
  | .waiting | .done _ => false

def answer : Stage δ ε → Option (Answer δ ε)
  | .settled answer | .stored answer | .done answer => some answer
  | .waiting | .running => none

/-- The answer, once it is in the results. -/
def kept : Stage δ ε → Option (Answer δ ε)
  | .stored answer | .done answer => some answer
  | .waiting | .running | .settled _ => none

end Stage

structure BatchConfig (ε : Type) where
  calls : List ToolCall
  /-- The registry has the tool, with `executionMode: 'sequential'`. -/
  isSequential : String → Bool
  limit : Limit
  describe : ε → String

/-- The batch on its way.  Calls are named by their place in it. -/
structure Batch (δ ε : Type) where
  results : List (Option (Completed δ))
  stage : Nat → Stage δ ε
  sequential : List Nat
  queue : List Nat
  inFlight : Nat
  pumping : Bool
  resolved : Bool
  started : List Nat

namespace BatchConfig

variable {δ ε : Type}

def sequentialAt (config : BatchConfig ε) (index : Nat) : Bool :=
  (config.calls[index]?).any fun call => config.isSequential call.toolName

def sequentialCalls (config : BatchConfig ε) : List Nat :=
  (List.range config.calls.length).filter config.sequentialAt

def parallelCalls (config : BatchConfig ε) : List Nat :=
  (List.range config.calls.length).filter fun index => !config.sequentialAt index

/-- `indexByCallId.get`: of calls with one id, the map has the last. -/
def indexByCallId (config : BatchConfig ε) (toolCallId : String) : Option Nat :=
  (List.range config.calls.length).reverse.find? fun index =>
    (config.calls[index]?).any fun call => call.toolCallId = toolCallId

def synthesizeFailure (config : BatchConfig ε) (call : ToolCall) (cause : ε) : Outcome δ :=
  .error <| frozenCompleted
    { toolCallId := call.toolCallId
      toolName := call.toolName
      kind := .executionFailed
      message := "tool execution rejected outside the executor pipeline: " ++
        config.describe cause
      hint := none }

def outcomeOf (config : BatchConfig ε) (call : ToolCall) : Answer δ ε → Outcome δ
  | .ok outcome => outcome
  | .error cause => config.synthesizeFailure call cause

end BatchConfig

namespace Batch

variable {δ ε : Type} (config : BatchConfig ε)

def setStage (batch : Batch δ ε) (index : Nat) (stage : Stage δ ε) : Batch δ ε :=
  { batch with stage := Function.update batch.stage index stage }

/-- `executeOne` is called. -/
def start (batch : Batch δ ε) (index : Nat) : Batch δ ε :=
  { batch.setStage index .running with started := batch.started ++ [index] }

/-- `results[idx] = completed` -/
def keep (batch : Batch δ ε) (index : Nat) (answer : Answer δ ε) : Batch δ ε :=
  match config.calls[index]? with
  | none => batch
  | some call =>
    match config.indexByCallId call.toolCallId with
    | none => batch
    | some slot =>
      { batch with
        results := batch.results.set slot
          (some ⟨call, config.outcomeOf call answer⟩) }

/-- The `while` of `tickle`. -/
def pump : List Nat → Batch δ ε → Batch δ ε
  | [], batch => { batch with queue := [] }
  | index :: rest, batch =>
    if config.limit.admits batch.inFlight then
      pump rest { batch.start index with inFlight := batch.inFlight + 1 }
    else { batch with queue := index :: rest }

def tickle (batch : Batch δ ε) : Batch δ ε :=
  let batch := pump config batch.queue batch
  if batch.queue = [] ∧ batch.inFlight = 0 then { batch with resolved := true } else batch

def advance (batch : Batch δ ε) : Batch δ ε :=
  match batch.sequential with
  | index :: rest => { batch.start index with sequential := rest }
  | [] => tickle config
      { batch with queue := config.parallelCalls, inFlight := 0, pumping := true }

def begin : Batch δ ε :=
  let batch : Batch δ ε := {
    results := List.replicate config.calls.length none
    stage := fun _ => .waiting
    sequential := config.sequentialCalls
    queue := []
    inFlight := 0
    pumping := false
    resolved := false
    started := [] }
  if config.calls = [] then { batch with pumping := true, resolved := true }
  else advance config batch

/-- What may come next: the promise of a running call settles; the sequential
loop goes on; of a parallel call, the `then` and the `finally` run. -/
inductive Event (δ ε : Type)
  | settle (index : Nat) (answer : Answer δ ε)
  | resume (index : Nat)
  | store (index : Nat)
  | release (index : Nat)

def step (batch : Batch δ ε) : Event δ ε → Option (Batch δ ε)
  | .settle index answer =>
    match batch.stage index with
    | .running => some (batch.setStage index (.settled answer))
    | _ => none
  | .resume index =>
    match config.sequentialAt index, batch.stage index with
    | true, .settled answer =>
      some (advance config ((batch.setStage index (.done answer)).keep config index
        answer))
    | _, _ => none
  | .store index =>
    match config.sequentialAt index, batch.stage index with
    | false, .settled answer =>
      some ((batch.setStage index (.stored answer)).keep config index answer)
    | _, _ => none
  | .release index =>
    match batch.stage index with
    | .stored answer =>
      let batch := { batch.setStage index (.done answer) with
        inFlight := batch.inFlight - 1 }
      if batch.queue = [] ∧ batch.inFlight = 0 then
        some { batch with resolved := true }
      else some (tickle config batch)
    | _ => none

def play : List (Event δ ε) → Batch δ ε → Option (Batch δ ε)
  | [], batch => some batch
  | event :: rest, batch => (batch.step config event).bind (play rest)

/-- `results.filter((r) => r !== undefined)` -/
def returned (batch : Batch δ ε) : List (Completed δ) := batch.results.filterMap id

end Batch

structure ToolMessage where
  toolCallId : String
  content : String
  deriving DecidableEq

/-- `JSON.stringify`, on a string and on any other value.  It throws on a cycle
and on a `bigint`, and writes nothing for `undefined`. -/
structure Json (δ : Type) where
  text : String → String
  value : δ → Except Unit (Option String)

variable {δ ε : Type}

def renderOutcome (json : Json δ) : Outcome δ → Except Unit String
  | .error toolError => .ok (renderToolErrorMessage toolError)
  | .success _ (some handle) =>
    .ok (renderOutput (some (handle.preview ++ "\n\n[Full result" ++
      (match handle.bytes with
        | some bytes => " (" ++ toString bytes ++ " bytes)"
        | none => "") ++
      " stored behind a handle. Call read_result with handle " ++
      json.text handle.uri ++
      " to retrieve it - optionally narrow with offset/length (bytes) or " ++
      "startLine/endLine.]")))
  | .success (.text value) none => .ok (renderOutput (some value))
  | .success (.other value) none => (json.value value).map renderOutput

/-- `byCallId.get` -/
def byCallId (completed : List (Completed δ)) (toolCallId : String) :
    Option (Completed δ) :=
  completed.reverse.find? fun entry => entry.call.toolCallId = toolCallId

/-- The messages of `dispatchToolBatch`, and what it threw. -/
def dispatchToolBatch (json : Json δ) (completed : List (Completed δ)) :
    List ToolCall → List ToolMessage → Except Unit Unit × List ToolMessage
  | [], messages => (.ok (), messages)
  | call :: rest, messages =>
    match byCallId completed call.toolCallId with
    | none => dispatchToolBatch json completed rest messages
    | some result =>
      match renderOutcome json result.outcome with
      | .error thrown => (.error thrown, messages)
      | .ok text => dispatchToolBatch json completed rest
          (messages ++ [⟨call.toolCallId, text⟩])

end Graphorin.Tools
