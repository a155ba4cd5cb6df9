namespace Graphorin.Workflow

/-! The typed failures the engine raises.  Every failure keeps the data its
message is made of; `code` is the stable discriminator callers match on. -/

/-- A generated identifier.  `newId` draws a random one; here the `run` that
drew it and its position there name it, so two draws never coincide. -/
structure Id where
  run : Nat
  seq : Nat
deriving DecidableEq

instance : ToString Id where
  toString id := toString id.run ++ "-" ++ toString id.seq

inductive CheckpointStatus
  | running
  | suspended
  | completed
  | failed
  | aborted
deriving DecidableEq

def CheckpointStatus.text : CheckpointStatus → String
  | .running => "running"
  | .suspended => "suspended"
  | .completed => "completed"
  | .failed => "failed"
  | .aborted => "aborted"

/-- Identity of one pause: the durable primitive's kind and its name. -/
structure PauseIdentity where
  kind : Option String
  name : Option String
deriving DecidableEq

inductive ErrorCode
  | invalidConfig
  | invalidChannelWrite
  | multiWriteIntoLatestValue
  | unknownNode
  | threadNotFound
  | checkpointVersionConflict
  | resumeWithoutSuspension
  | workflowAborted
  | workflowCancelTimeout
  | maxStepsExceeded
  | nodeExecutionFailed
  | reducerFailed
  | stateValidationFailed
  | deadEnd
  | stateNotSerializable
  | nodeTimeout
  | workflowVersionMismatch
  | workflowDivergence
  | pauseNotFound
  | pauseReplayDivergence
  | awakeablePayloadInvalid
deriving DecidableEq

inductive WorkflowError
  | invalidConfig (message : String)
  | unknownNode (nodeName context : String)
  | invalidChannelWrite (nodeName channel : String)
  | multiWrite (channel : String) (writers : List String)
  | reducer (channel cause : String)
  | threadNotFound (threadId : String)
  | checkpointVersionConflict (threadId : String)
      (expectedParentId actualLatestId : Option Id)
  | resumeWithoutSuspension (threadId : String) (status : CheckpointStatus)
  | aborted (threadId reason : String)
  | cancelTimeout (cancelGraceMs : Nat) (workflowName : String)
  | maxSteps (workflowName : String) (maxSteps : Nat)
  | maxTotalSteps (workflowName : String) (maxTotalSteps : Nat)
  | nodeExecution (nodeName cause : String)
  | nodeTimeout (nodeName : String) (timeoutMs : Nat)
  | versionMismatch (threadId storedVersion currentVersion : String)
  | divergence (threadId : String) (missingNodes : List String)
  | pauseNotFound (threadId pauseName : String)
  | deadEnd (workflowName : String) (stalledNodes : List String)
  | stateNotSerializable (channel path kind : String)
  | stateValidation (message : String)
  | replayDivergence (nodeName : String) (actual expected : PauseIdentity)
      (cursor : Nat)
  | awakeablePayload (message : String)
deriving DecidableEq

def WorkflowError.code : WorkflowError → ErrorCode
  | .invalidConfig _ => .invalidConfig
  | .unknownNode _ _ => .unknownNode
  | .invalidChannelWrite _ _ => .invalidChannelWrite
  | .multiWrite _ _ => .multiWriteIntoLatestValue
  | .reducer _ _ => .reducerFailed
  | .threadNotFound _ => .threadNotFound
  | .checkpointVersionConflict _ _ _ => .checkpointVersionConflict
  | .resumeWithoutSuspension _ _ => .resumeWithoutSuspension
  | .aborted _ _ => .workflowAborted
  | .cancelTimeout _ _ => .workflowCancelTimeout
  | .maxSteps _ _ => .maxStepsExceeded
  | .maxTotalSteps _ _ => .maxStepsExceeded
  | .nodeExecution _ _ => .nodeExecutionFailed
  | .nodeTimeout _ _ => .nodeTimeout
  | .versionMismatch _ _ _ => .workflowVersionMismatch
  | .divergence _ _ => .workflowDivergence
  | .pauseNotFound _ _ => .pauseNotFound
  | .deadEnd _ _ => .deadEnd
  | .stateNotSerializable _ _ _ => .stateNotSerializable
  | .stateValidation _ => .stateValidationFailed
  | .replayDivergence _ _ _ _ => .pauseReplayDivergence
  | .awakeablePayload _ => .awakeablePayloadInvalid

private def quoted (text : String) : String := "\"" ++ text ++ "\""

private def quotedList (texts : List String) : String :=
  String.intercalate ", " (texts.map quoted)

def describePauseIdentity (id : PauseIdentity) : String :=
  let parts :=
    (id.kind.toList.map fun kind => "kind '" ++ kind ++ "'") ++
      (id.name.toList.map fun name => "name '" ++ name ++ "'")
  if parts.isEmpty then "a plain pause" else String.intercalate " / " parts

def WorkflowError.message : WorkflowError → String
  | .invalidConfig message => message
  | .unknownNode nodeName context =>
    "unknown node " ++ quoted nodeName ++ " referenced from " ++ context
  | .invalidChannelWrite nodeName channel =>
    "node " ++ quoted nodeName ++ " wrote into the channel " ++
      quoted channel ++
      " but the channel is not declared on the workflow stateSchema"
  | .multiWrite channel writers =>
    "multiple writers attempted to update the LatestValue channel " ++
      quoted channel ++ " within a single execution step (writers: " ++
      String.intercalate ", " writers ++ ")"
  | .reducer channel _ =>
    "reducer for channel " ++ quoted channel ++ " threw while merging writes"
  | .threadNotFound threadId =>
    "no checkpoint found for thread " ++ quoted threadId
  | .checkpointVersionConflict threadId expected actual =>
    "thread " ++ quoted threadId ++
      " advanced concurrently - expected latest checkpoint " ++
      quoted ((expected.map toString).getD "<fresh-run>") ++ " but found " ++
      quoted ((actual.map toString).getD "<none>")
  | .resumeWithoutSuspension threadId status =>
    "cannot resume thread " ++ quoted threadId ++ " - current status is " ++
      quoted status.text ++ ", expected \"suspended\""
  | .aborted threadId reason =>
    if reason.isEmpty then "workflow thread " ++ quoted threadId ++ " aborted"
    else "workflow thread " ++ quoted threadId ++ " aborted: " ++ reason
  | .cancelTimeout cancelGraceMs workflowName =>
    "cancellation grace (" ++ toString cancelGraceMs ++
      "ms) expired with unsettled task(s) still running in workflow " ++
      quoted workflowName
  | .maxSteps workflowName cap =>
    "workflow " ++ quoted workflowName ++ " exceeded the maxSteps cap (" ++
      toString cap ++
      " steps in one invocation); aborting to prevent runaway execution"
  | .maxTotalSteps workflowName cap =>
    "workflow " ++ quoted workflowName ++
      " exceeded the maxTotalSteps lifetime cap (" ++ toString cap ++
      " cumulative steps across all invocations)"
  | .nodeExecution nodeName _ =>
    "node " ++ quoted nodeName ++ " failed during execution"
  | .nodeTimeout nodeName timeoutMs =>
    "node " ++ quoted nodeName ++ " exceeded its " ++ toString timeoutMs ++
      "ms timeout"
  | .versionMismatch threadId stored current =>
    "thread " ++ quoted threadId ++ " was suspended by workflow version " ++
      quoted stored ++ " but the current definition is " ++ quoted current
  | .divergence threadId missingNodes =>
    "thread " ++ quoted threadId ++
      " cannot resume: the persisted frontier references node(s) " ++
      quotedList missingNodes ++ " that are absent from the current definition"
  | .pauseNotFound threadId pauseName =>
    "thread " ++ quoted threadId ++
      " has no pending awakeable/approval named " ++ quoted pauseName
  | .deadEnd workflowName stalledNodes =>
    "workflow " ++ quoted workflowName ++ " dead-ended: node(s) " ++
      quotedList stalledNodes ++
      " completed but no outgoing edge fired and no __end__ edge is satisfied"
  | .stateNotSerializable channel path kind =>
    "channel " ++ quoted channel ++ " holds a non-JSON-safe value (" ++ kind ++
      " at " ++ path ++ ") - checkpoint state must survive a JSON round-trip"
  | .stateValidation message => message
  | .replayDivergence nodeName actual expected cursor =>
    "node '" ++ nodeName ++ "' paused as " ++ describePauseIdentity actual ++
      " where the journal recorded " ++ describePauseIdentity expected ++
      " at cursor " ++ toString cursor ++
      ". The body's pause order depends on state/time/model output - make" ++
      " the branching between pauses deterministic, or key the waits by" ++
      " distinct awakeable names."
  | .awakeablePayload message => message

/-- What can travel up through the engine loop: a typed failure, or whatever a
user callback threw. -/
inductive Fault
  | workflow (error : WorkflowError)
  | thrown (message : String)
deriving DecidableEq

def Fault.code : Fault → ErrorCode
  | .workflow error => error.code
  | .thrown _ => .nodeExecutionFailed

def Fault.message : Fault → String
  | .workflow error => error.message
  | .thrown message => message

end Graphorin.Workflow
