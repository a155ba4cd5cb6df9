import Graphorin.Auth.Scope

namespace Graphorin.Server

open Auth (ParsedScope scopeMatches tryParseScope)

/-! The subject grammar, and the scope a subject asks for. -/

inductive ParsedSubject
  | sessionEvents (sessionId : String)
  | sessionRunEvents (sessionId runId : String)
  | agentRunEvents (agentId runId : String)
  | workflowEvents (workflowId : String)
  | workflowRunEvents (workflowId runId : String)
  | memoryConflicts
  | auditEvents
deriving DecidableEq

inductive SubjectError
  | wildcardNotSupported
  | unknownSubject
  | malformed
deriving DecidableEq

/-- `[A-Za-z0-9_-]`. -/
def isIdCharacter (character : Char) : Bool :=
  character.isAlphanum || character = '_' || character = '-'

def afterPrefix : List Char → List Char → Option (List Char)
  | [], text => some text
  | _ :: _, [] => none
  | expected :: more, character :: rest =>
    if expected = character then afterPrefix more rest else none

/-- `([A-Za-z0-9_-]+)`, taken as far as it goes. -/
def idSegment (text : List Char) : Option (String × List Char) :=
  let (name, rest) := text.span isIdCharacter
  if name = [] then none else some (String.ofList name, rest)

/-- `^family:([A-Za-z0-9_-]+)\/events$`. -/
def matchEvents (family raw : String) : Option String := do
  let text ← afterPrefix (family.toList ++ [':']) raw.toList
  let (name, rest) ← idSegment text
  if rest = "/events".toList then some name else none

/-- `^family:([A-Za-z0-9_-]+)\/runs\/([A-Za-z0-9_-]+)\/events$`. -/
def matchRunEvents (family raw : String) : Option (String × String) := do
  let text ← afterPrefix (family.toList ++ [':']) raw.toList
  let (name, rest) ← idSegment text
  let text ← afterPrefix "/runs/".toList rest
  let (runId, rest) ← idSegment text
  if rest = "/events".toList then some (name, runId) else none

def tryParseSubject (raw : String) : Except SubjectError ParsedSubject :=
  if raw = "" then .error .malformed
  else if '*' ∈ raw.toList ∨ '#' ∈ raw.toList then .error .wildcardNotSupported
  else if raw = "memory/conflicts" then .ok .memoryConflicts
  else if raw = "audit/events" then .ok .auditEvents
  else
    match matchRunEvents "session" raw with
    | some (sessionId, runId) => .ok (.sessionRunEvents sessionId runId)
    | none =>
    match matchRunEvents "agent" raw with
    | some (agentId, runId) => .ok (.agentRunEvents agentId runId)
    | none =>
    match matchEvents "session" raw with
    | some sessionId => .ok (.sessionEvents sessionId)
    | none =>
    match matchRunEvents "workflow" raw with
    | some (workflowId, runId) => .ok (.workflowRunEvents workflowId runId)
    | none =>
    match matchEvents "workflow" raw with
    | some workflowId => .ok (.workflowEvents workflowId)
    | none => .error .unknownSubject

def requiredScopeFor : ParsedSubject → Option ParsedScope
  | .sessionEvents sessionId => tryParseScope ("sessions:read:" ++ sessionId)
  | .sessionRunEvents sessionId _ => tryParseScope ("sessions:read:" ++ sessionId)
  | .agentRunEvents agentId _ => tryParseScope ("agents:read:" ++ agentId)
  | .workflowEvents workflowId => tryParseScope ("workflows:read:" ++ workflowId)
  | .workflowRunEvents workflowId _ => tryParseScope ("workflows:read:" ++ workflowId)
  | .memoryConflicts => tryParseScope "memory:read"
  | .auditEvents => tryParseScope "audit:read"

/-- `none` where `requiredScopeFor` throws, as `parseScope` does. -/
def isSubjectAllowed (granted : List ParsedScope) (subject : ParsedSubject) :
    Option Bool :=
  (requiredScopeFor subject).map fun required =>
    granted.any fun scope => scopeMatches scope required

example : (tryParseSubject "session:s_1/runs/r-2/events").toOption =
    some (.sessionRunEvents "s_1" "r-2") := by decide

end Graphorin.Server
