import Graphorin.Agent.Types
import Graphorin.Js.Space

namespace Graphorin.Agent

open Js (JsValue)

/-! What a tool execution tells the model. -/

namespace ToolErrorKind

def name : ToolErrorKind → String
  | .unknownTool => "unknown_tool"
  | .invalidInput => "invalid_input"
  | .approvalDenied => "approval_denied"
  | .capabilityBlocked => "capability_blocked"
  | .dataflowPolicyBlocked => "dataflow_policy_blocked"
  | .executionFailed => "execution_failed"
  | .aborted => "aborted"
  | .other name => name

end ToolErrorKind

def recoveryForKind : ToolErrorKind → Bool × Option String
  | .invalidInput => (false, some "check_input")
  | .unknownTool | .executionFailed => (false, some "try_alternative")
  | .approvalDenied | .capabilityBlocked | .dataflowPolicyBlocked =>
    (false, some "report_to_user")
  | .aborted => (false, none)
  | .other name =>
    if name = "rate_limited" ∨ name = "timeout" then (true, some "retry_later")
    else if name = "invalid_output" then (false, some "try_alternative")
    else if name = "sandbox_violation" ∨ name = "inbound_sanitization_blocked" then
      (false, some "report_to_user")
    else (false, none)

/-- `frozenCompleted` of an error: what it does not say of its recovery is
stamped on it. -/
def frozenCompleted (error : ToolError) : ToolError :=
  { error with
    recoverable := error.recoverable.or (some (recoveryForKind error.kind).1)
    recoveryHint := error.recoveryHint.or (recoveryForKind error.kind).2 }

def renderToolErrorMessage (error : ToolError) : String :=
  let recoverable := match error.recoverable with
    | some true => ["recoverable: yes"]
    | some false => ["recoverable: no"]
    | none => []
  let action := match error.recoveryHint with
    | some hint => ["suggested action: " ++ hint]
    | none => []
  "Error: " ++ error.message ++ "\n[" ++
    "; ".intercalate (["kind: " ++ error.kind.name] ++ recoverable ++ action ++
      error.hint.toList) ++ "]"

def renderOutput (rendered : Option String) : String :=
  let text := rendered.getD ""
  if text.toList.all Js.isWhiteChar then
    "(tool ran successfully with no output)"
  else text

end Graphorin.Agent
