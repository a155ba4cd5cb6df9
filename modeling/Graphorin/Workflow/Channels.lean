import Graphorin.Lib.Record
import Graphorin.Js.Value
import Graphorin.Workflow.Errors

namespace Graphorin.Workflow

open Graphorin.Lib
open Graphorin.Js

/-! The per-channel write merger: `applyWrites` and what it is made of. -/

abbrev State := Record String JsValue

abbrev Versions := Record String Nat

/-- `state[key]` on a plain record. -/
def State.read (state : State) (key : String) : JsValue :=
  (Record.get? state key).getD .undefined

def startNode : String := "__start__"

def endNode : String := "__end__"

def tasksChannel : String := "__graphorin_tasks__"

/-- A channel descriptor; `default` is `undefined` when none is declared. -/
inductive Channel
  | latestValue (default : JsValue)
  | anyValue (default : JsValue)
  | reducer (reduce : JsValue → JsValue → Except String JsValue)
      (default : JsValue)
  | listAggregate (default : JsValue)
  | stream (unique : Bool) (default : JsValue)
  | barrier (writers : List String) (default : JsValue)
  | ephemeral (default : JsValue)

def Channel.default : Channel → JsValue
  | .latestValue default => default
  | .anyValue default => default
  | .reducer _ default => default
  | .listAggregate default => default
  | .stream _ default => default
  | .barrier _ default => default
  | .ephemeral default => default

def Channel.isEphemeral : Channel → Bool
  | .ephemeral _ => true
  | _ => false

/-- The owner of a row: a task, the step-intent record of the journal, or a
directive's channel update. -/
inductive TaskId
  | task (id : Id)
  | stepIntent
  | directive
deriving DecidableEq

structure ChannelWrite where
  nodeName : String
  taskId : TaskId
  index : Nat
  channel : String
  value : JsValue
deriving DecidableEq

structure ApplyResult where
  state : State
  versions : Versions
  changedChannels : List String
  ephemeralValues : Record String JsValue

def groupByChannel (writes : List ChannelWrite) :
    Record String (List ChannelWrite) :=
  writes.foldl
    (fun out w => out.set w.channel ((out.get? w.channel).getD [] ++ [w])) []

def lastValue (writes : List ChannelWrite) : JsValue :=
  (writes.getLast?.map ChannelWrite.value).getD .undefined

/-- The array a list or stream channel appends to. -/
def priorItems (before : JsValue) : List JsValue := before.items?.getD []

def writtenItems (value : JsValue) : List JsValue :=
  match value with
  | .arr items => items
  | item => [item]

def pushUnique (acc : List JsValue) (item : JsValue) : List JsValue :=
  if acc.any fun existing => existing.deepEqual item then acc else acc ++ [item]

def mergeChannel (channelName : String) (descriptor : Channel)
    (before : JsValue) (writes : List ChannelWrite) :
    Except WorkflowError JsValue :=
  match descriptor with
  | .latestValue _ =>
    if writes.length > 1 then
      .error (.multiWrite channelName (writes.map ChannelWrite.nodeName))
    else .ok ((writes.head?.map ChannelWrite.value).getD .undefined)
  | .anyValue _ => .ok (lastValue writes)
  | .reducer reduce _ =>
    match writes.foldlM (fun acc w => reduce acc w.value) before with
    | .ok merged => .ok merged
    | .error cause => .error (.reducer channelName cause)
  | .listAggregate _ =>
    .ok (.arr (writes.foldl (fun acc w => acc ++ writtenItems w.value)
      (priorItems before)))
  | .stream unique _ =>
    .ok (.arr (writes.foldl
      (fun acc w =>
        if unique then (writtenItems w.value).foldl pushUnique acc
        else acc ++ writtenItems w.value)
      (priorItems before)))
  | .barrier writers _ =>
    .ok (.obj (writes.foldl
      (fun map w =>
        if writers.contains w.nodeName then Record.set map w.nodeName w.value
        else map)
      (before.fields?.getD [])))
  | .ephemeral _ => .ok (lastValue writes)

structure MergeProgress where
  next : State
  versions : Versions
  ephemeralKeys : List String
  changed : List String

def descriptorFor (channels : Record String Channel) (channelName : String) :
    Option Channel :=
  if channelName = tasksChannel then some (.stream false .undefined)
  else channels.get? channelName

def applyGroup (channels : Record String Channel) (progress : MergeProgress)
    (group : String × List ChannelWrite) :
    Except WorkflowError MergeProgress :=
  match descriptorFor channels group.1 with
  | none =>
    .error (.invalidChannelWrite
      ((group.2.head?.map ChannelWrite.nodeName).getD "<unknown>") group.1)
  | some descriptor => do
      let merged ← mergeChannel group.1 descriptor
        (State.read progress.next group.1) group.2
      pure
        { next := Record.set progress.next group.1 merged
          versions := Record.set progress.versions group.1
            ((Record.get? progress.versions group.1).getD 0 + 1)
          ephemeralKeys :=
            if descriptor.isEphemeral then progress.ephemeralKeys ++ [group.1]
            else progress.ephemeralKeys
          changed := progress.changed ++ [group.1] }

/-- Apply every write of one step.  Ephemeral values are handed back beside
the state, never inside it. -/
def applyWrites (state : State) (versions : Versions)
    (channels : Record String Channel) (writes : List ChannelWrite) :
    Except WorkflowError ApplyResult := do
  let merged ← (groupByChannel writes).foldlM (applyGroup channels)
    ⟨state, versions, [], []⟩
  pure
    { state := merged.ephemeralKeys.foldl Record.erase merged.next
      versions := merged.versions
      changedChannels := merged.changed
      ephemeralValues := merged.ephemeralKeys.map fun key =>
        (key, State.read merged.next key) }

/-- Keep the entries whose value is not `undefined`. -/
def definedEntries (record : Record String JsValue) : Record String JsValue :=
  record.filter fun entry => !entry.2.isUndefined

/-- Channel defaults, then `initialState`, then the input of the call. -/
def buildInitialState (channels : Record String Channel)
    (initial inputState : Record String JsValue) : State :=
  let defaults := definedEntries
    (channels.map fun entry => (entry.1, entry.2.default))
  Record.overlay (Record.overlay (Record.overlay [] defaults)
    (definedEntries initial)) (definedEntries inputState)

end Graphorin.Workflow
