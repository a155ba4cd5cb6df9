import Graphorin.Js.Value

namespace Graphorin.Agent

open Js (JsValue)

/-! The parts of an agent run: its transcript, how it ends, and what waits for a human. -/

structure ToolCall where
  toolCallId : String
  toolName : String
  args : JsValue
deriving DecidableEq

inductive Message
  | system (content : String)
  | user (content : String)
  | assistant (content : String) (toolCalls : List ToolCall) (agentId : String)
  | tool (toolCallId content : String)
deriving DecidableEq

inductive RunStatus
  | running
  | completed
  | failed
  | aborted
  | awaitingApproval
deriving DecidableEq

structure RunError where
  message : String
  code : String
deriving DecidableEq

/-- `'allow' | 'deny' | 'ask' | 'defer'` of hooks and policies. -/
inductive Decision
  | allow
  | deny
  | ask
  | defer
deriving DecidableEq

structure ToolApproval where
  toolCallId : String
  toolName : String
  args : JsValue
  mode : Option Decision
  reason : Option String
  subRunToolCallId : Option String
deriving DecidableEq

inductive ToolErrorKind
  | unknownTool
  | invalidInput
  | approvalDenied
  | capabilityBlocked
  | dataflowPolicyBlocked
  | executionFailed
  | aborted
  | other (name : String)
deriving DecidableEq

structure ToolError where
  toolCallId : String
  toolName : String
  kind : ToolErrorKind
  message : String
  hint : Option String
  recoverable : Option Bool := none
  recoveryHint : Option String := none
deriving DecidableEq

structure ApprovalDecision where
  toolCallId : String
  granted : Bool
  reason : Option String
  subRunToolCallId : Option String
deriving DecidableEq

end Graphorin.Agent
