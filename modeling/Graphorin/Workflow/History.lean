import Graphorin.Workflow.Loop
import Graphorin.Workflow.Resume

namespace Graphorin.Workflow

open Graphorin.Lib
open Graphorin.Js

/-! Histories of one thread: one invocation after the other, each run to its
end or killed before one of its store calls. -/

/-- `crash` is the number of store calls the process lives for. -/
structure Call where
  invocation : Invocation
  options : InvocationOptions
  crash : Option Nat := none

def Call.optionsAt (call : Call) (run : Nat) : InvocationOptions :=
  { call.options with run := run }

def Call.program (config : WorkflowConfig) (threadId : String) (run : Nat)
    (call : Call) : EngineM Unit :=
  call.invocation.program config threadId (call.optionsAt run)

/-- What every invocation so far was seen to do, and the store it left. -/
structure Thread where
  log : List (List Obs)
  store : CheckpointStore

def Thread.unused : Thread := ⟨[], []⟩

def Call.play (config : WorkflowConfig) (threadId : String) (order : RowOrder)
    (run : Nat) (call : Call) (store : CheckpointStore) :
    List Obs × CheckpointStore :=
  let program := call.program config threadId run
  match call.crash with
  | none =>
    let played := program.run (storeHandler order) store
    (observed played.trace, played.final)
  | some limit =>
    let played := program.runFor (storeHandler order) limit store
    (observed played.trace, played.final)

def Thread.step (config : WorkflowConfig) (threadId : String)
    (order : RowOrder) (thread : Thread) (call : Call) : Thread :=
  let played := call.play config threadId order thread.log.length thread.store
  ⟨thread.log ++ [played.1], played.2⟩

/-- The threads reached by calls that all meet `admits`. -/
inductive Reaches (config : WorkflowConfig) (threadId : String)
    (order : RowOrder) (admits : Thread → Call → Prop) : Thread → Prop
  | unused : Reaches config threadId order admits .unused
  | call {thread : Thread} (reached : Reaches config threadId order admits thread)
      (call : Call) (admitted : admits thread call) :
      Reaches config threadId order admits (thread.step config threadId order call)

theorem Call.play_of_ensures {config : WorkflowConfig} {threadId : String}
    {order : RowOrder} {run : Nat} {call : Call} {store : CheckpointStore}
    {claim : CheckpointStore → List Obs → Prop}
    (holds : (call.program config threadId run).ensures (storeHandler order)
      claim (fun _ => claim) store []) :
    claim (call.play config threadId order run store).2
      (call.play config threadId order run store).1 := by
  unfold Call.play
  cases call.crash with
  | none => simpa using Program.run_of_ensures holds
  | some limit =>
    have reached := Program.runFor_of_ensures limit holds
    cases stopped : ((call.program config threadId run).runFor
        (storeHandler order) limit store).result with
    | none => simpa [stopped, Program.stopped] using reached
    | some => simpa [stopped, Program.stopped] using reached

section Rules

variable {order : RowOrder} {stop : CheckpointStore → List Obs → Prop}
variable {config : WorkflowConfig} {threadId : String}
variable {options : InvocationOptions}
variable {post : Except Fault Unit → CheckpointStore → List Obs → Prop}
variable {store : CheckpointStore} {past : List Obs}

/-- The end of `driveRun` as its caller reports it. -/
def reporting (threadId : String)
    (post : Except Fault Unit → CheckpointStore → List Obs → Prop) :
    Except Fault Unit → CheckpointStore → List Obs → Prop
  | .ok _, store, past => post (.ok ()) store past
  | .error fault, store, past =>
    post (.ok ()) store (past ++ [emitError threadId fault])

theorem ensures_driveReporting {args : DriveRunArgs} {internal : RunInternalState}
    (drives : (driveRun args internal).ensures (storeHandler order) stop
      (reporting args.threadId post) store past) :
    (driveReporting args internal).ensures (storeHandler order) stop post store
      past := by
  rw [driveReporting, Program.ensures_catchFail]
  refine Program.ensures_mono ?_ drives
  intro result store past reached
  cases result with
  | ok => exact reached
  | error => exact reached

variable {restore : RestoreOptions}

theorem ensures_resumeEngine (stopping : stop store past)
    (reported : ∀ error, post (.ok ()) store (past ++ [emitError threadId (.workflow error)]))
    (escaped : ∀ error, post (.error (.workflow error)) store past)
    (restored : ∀ tuple internal, store.latest threadId (namespaceFor config) = some tuple →
      restoreRun config restore (order.read tuple) = .ok internal →
        (driveReporting (driveArgs config threadId options) internal).ensures (storeHandler order)
          stop post store
            (past ++ [.event (.resumed threadId internal.stepNumber internal.state)])) :
    (resumeEngine config threadId options restore).ensures (storeHandler order)
      stop post store past := by
  unfold resumeEngine
  cases checkDirective restore.directive with
  | error error => exact reported error
  | ok =>
    refine ⟨stopping, ?_⟩
    show Program.ensures _ _ _ (resumeFrom config threadId options restore
      ((store.latest threadId (namespaceFor config)).map order.read)) _ _
    cases found : store.latest threadId (namespaceFor config) with
    | none => exact reported _
    | some tuple =>
      show Program.ensures _ _ _ (driveRestored config threadId options
        (restoreRun config restore (order.read tuple))) _ _
      cases outcome : restoreRun config restore (order.read tuple) with
      | error refusal =>
        cases refusal with
        | reported error => exact reported error
        | escaped error => exact escaped error
      | ok internal => exact restored tuple internal found outcome

theorem ensures_resumed (stopping : stop store past)
    (checked : checkDirective restore.directive = .ok ())
    (found : store.latest threadId (namespaceFor config) = some tuple)
    (restores : restoreRun config restore (order.read tuple) = .ok internal)
    (drives : (driveReporting (driveArgs config threadId options) internal).ensures
      (storeHandler order) stop post store
        (past ++ [.event (.resumed threadId internal.stepNumber internal.state)])) :
    (resumeEngine config threadId options restore).ensures (storeHandler order)
      stop post store past := by
  unfold resumeEngine
  rw [checked]
  refine ⟨stopping, ?_⟩
  show Program.ensures _ _ _ (resumeFrom config threadId options restore
    ((store.latest threadId (namespaceFor config)).map order.read)) _ _
  rw [found]
  show Program.ensures _ _ _ (driveRestored config threadId options
    (restoreRun config restore (order.read tuple))) _ _
  rw [restores]
  exact drives

/-- How an invocation other than `execute` restores a thread. -/
def Invocation.restores (threadId : String) (options : InvocationOptions) :
    Invocation → RestoreOptions → Prop
  | .execute _, _ => False
  | .resume directive, restore =>
    restore = { baseRestore threadId options with directive := directive }
  | .retry, restore =>
    restore = { baseRestore threadId options with mode := .retry }
  | .resolveAwakeable name value, restore =>
    restore =
      { baseRestore threadId options with
        directive := { resume := value }
        selectPause := some fun record => record.name == some name
        selectPauseLabel := name }
  | .tick _, restore => ∃ due, restore = tickRestore threadId options due

variable {invocation : Invocation}

theorem Invocation.restores_retry (restores : invocation.restores threadId options restore)
    (mode : restore.mode = .retry) : invocation = .retry := by
  cases invocation with
  | execute => cases restores
  | resume => cases restores; cases mode
  | retry => rfl
  | resolveAwakeable => cases restores; cases mode
  | tick =>
    obtain ⟨due, rfl⟩ := restores
    cases mode

theorem Invocation.restores_run (restores : invocation.restores threadId options restore) :
    restore.run = options.run := by
  cases invocation with
  | execute => cases restores
  | resume => cases restores; rfl
  | retry => cases restores; rfl
  | resolveAwakeable => cases restores; rfl
  | tick =>
    obtain ⟨due, rfl⟩ := restores
    rfl

/-- Rule of a whole invocation, for what is claimed wherever it may end. -/
theorem ensures_invocation (untouched : claim store [])
    (refused : ∀ error, claim store [emitError threadId (.workflow error)])
    (started : ∀ input, invocation = .execute input →
      (driveReporting (driveArgs config threadId options)
        (initialInternal config input options.run)).ensures (storeHandler order) claim
          (fun _ => claim) store [.event (.start threadId config.name)])
    (restored : ∀ restore tuple internal, invocation.restores threadId options restore →
      store.latest threadId (namespaceFor config) = some tuple →
        restoreRun config restore (order.read tuple) = .ok internal →
          (driveReporting (driveArgs config threadId options) internal).ensures
            (storeHandler order) claim (fun _ => claim) store
              [.event (.resumed threadId internal.stepNumber internal.state)]) :
    (invocation.program config threadId options).ensures (storeHandler order)
      claim (fun _ => claim) store [] := by
  have resumes : ∀ restore, invocation.restores threadId options restore →
      (resumeEngine config threadId options restore).ensures
        (storeHandler order) claim (fun _ => claim) store [] := by
    intro restore restores
    apply ensures_resumeEngine untouched
    · exact refused
    · intro error
      exact untouched
    · exact fun tuple internal => restored restore tuple internal restores
  cases invocation with
  | execute input => exact started input rfl
  | resume => exact resumes _ rfl
  | retry => exact resumes _ rfl
  | resolveAwakeable => exact resumes _ rfl
  | tick now =>
    refine ⟨untouched, ?_⟩
    show Program.ensures _ _ _ (tickFrom config threadId options now
      ((store.latest threadId (namespaceFor config)).map order.read)) _ _
    cases found : store.latest threadId (namespaceFor config) with
    | none => exact untouched
    | some tuple =>
      rw [Option.map_some, tickFrom]
      split
      · exact untouched
      · rename_i due _
        split
        · rw [Program.bind_eq, Program.ensures_bind]
          refine Program.ensures_mono ?_ (resumes _ ⟨due, rfl⟩)
          intro result store past reached
          cases result with
          | error => exact reached
          | ok => exact ⟨reached, reached⟩
        · exact untouched

end Rules

end Graphorin.Workflow
