import Graphorin.Workflow.Channels

namespace Graphorin.Workflow

open Graphorin.Lib
open Graphorin.Js

/-! Node bodies and the replay scope `pause()` runs in. -/

/-- What a node body may return.  `nothing` stands for `undefined`, `null` and
every bare primitive: the engine ignores them all. -/
inductive NodeOutput
  | nothing
  | dispatch (nodeName : String) (args : JsValue)
  | writes (fields : List (String × JsValue))
  | list (items : List NodeOutput)

inductive NodeError
  | workflow (error : WorkflowError)
  | awakeablePayload (awakeableName message : String)
  | replayDivergence (expected actual : PauseIdentity) (cursor : Nat)
  | thrown (message : String)
deriving DecidableEq

/-- One execution of a node body, cut at its `pause()` calls: what the body
does next depends on what the call returned. -/
inductive NodeRun
  | ret (output : NodeOutput)
  | throw (error : NodeError)
  | pause (value : JsValue) (resumed : JsValue → NodeRun)

inductive BodyResult
  | returned (output : NodeOutput)
  | paused (value : JsValue)
  | threw (error : NodeError)

/-- How a body ended, with the values its `pause()` calls returned on the
way. -/
structure Replay where
  result : BodyResult
  received : List JsValue

def identityOfPauseValue (value : JsValue) : PauseIdentity where
  kind := (value.field "kind").str?
  name := (value.field "name").str?

/-- The identity a replayed value is checked against is empty for a plain
pause and missing in older checkpoints; neither is ever checked. -/
def replayDiverges (expected : Option PauseIdentity) (value : JsValue) :
    Option PauseIdentity :=
  expected.filter fun id =>
    let actual := identityOfPauseValue value
    (id.kind.isSome && id.kind != actual.kind) ||
      (id.name.isSome && id.name != actual.name)

/-- `runWithPauseResume`: the leading `pause()` calls return `values` in order,
the first one past them suspends. -/
def NodeRun.replay (cursor : Nat) :
    NodeRun → List JsValue → List (Option PauseIdentity) → Replay
  | .ret output, _, _ => ⟨.returned output, []⟩
  | .throw error, _, _ => ⟨.threw error, []⟩
  | .pause value _, [], _ => ⟨.paused value, []⟩
  | .pause value resumed, next :: values, metas =>
    match replayDiverges metas.head?.join value with
    | some expected =>
      ⟨.threw (.replayDivergence expected (identityOfPauseValue value)
        cursor), []⟩
    | none =>
      let rest := NodeRun.replay (cursor + 1) (resumed next) values metas.tail
      ⟨rest.result, next :: rest.received⟩

def timerPauseKind : String := "graphorin.timer"

def awakeablePauseKind : String := "graphorin.awakeable"

def approvalPauseKind : String := "graphorin.approval"

def timerWakeAt? (value : JsValue) : Option Rat :=
  if (value.field "kind").str? = some timerPauseKind then
    (value.field "wakeAt").num?
  else none

def awakeableName? (value : JsValue) : Option String :=
  if (value.field "kind").str? = some awakeablePauseKind then
    (value.field "name").str?
  else none

def approvalName? (value : JsValue) : Option String :=
  if (value.field "kind").str? = some approvalPauseKind then
    (value.field "name").str?
  else none

/-- `wakeAt` of a pause record: a timer's, or the deadline of an approval. -/
def pauseWakeAt (value : JsValue) : Option Rat :=
  (timerWakeAt? value).or
    (if (approvalName? value).isSome then (value.field "wakeAt").num? else none)

/-- `name` of a pause record: an awakeable's or an approval's. -/
def pauseName (value : JsValue) : Option String :=
  (awakeableName? value).or (approvalName? value)

structure Harvest where
  writes : List ChannelWrite
  dispatches : List (String × JsValue)

def Harvest.write (harvest : Harvest) (nodeName : String) (taskId : TaskId)
    (entry : String × JsValue) : Harvest :=
  if entry.2.isUndefined then harvest
  else
    { harvest with
      writes := harvest.writes ++
        [⟨nodeName, taskId, harvest.writes.length, entry.1, entry.2⟩] }

mutual
def consume (nodeName : String) (taskId : TaskId) :
    NodeOutput → Harvest → Harvest
  | .nothing, harvest => harvest
  | .dispatch target args, harvest =>
    { harvest with dispatches := harvest.dispatches ++ [(target, args)] }
  | .writes fields, harvest =>
    fields.foldl (fun acc entry => acc.write nodeName taskId entry) harvest
  | .list items, harvest => consumeAll nodeName taskId items harvest

def consumeAll (nodeName : String) (taskId : TaskId) :
    List NodeOutput → Harvest → Harvest
  | [], harvest => harvest
  | item :: rest, harvest =>
    consumeAll nodeName taskId rest (consume nodeName taskId item harvest)
end

def harvestNodeOutput (nodeName : String) (taskId : TaskId)
    (output : NodeOutput) : Harvest :=
  consume nodeName taskId output ⟨[], []⟩

end Graphorin.Workflow
