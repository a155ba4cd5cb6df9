import Graphorin.Audit.Canonical

namespace Graphorin.Audit

open Graphorin.Js

/-! Audit entries, and the hash that chains them. -/

inductive AuditActorKind
  | token
  | cli
  | agent
  | tool
  | system
  | subagent
deriving DecidableEq

def AuditActorKind.text : AuditActorKind → JsText
  | .token => ascii "token"
  | .cli => ascii "cli"
  | .agent => ascii "agent"
  | .tool => ascii "tool"
  | .system => ascii "system"
  | .subagent => ascii "subagent"

structure AuditActor where
  kind : AuditActorKind
  id : JsText
  label : Option JsText
deriving DecidableEq

inductive AuditDecision
  | success
  | denied
  | error
  | notFound
deriving DecidableEq

def AuditDecision.text : AuditDecision → JsText
  | .success => ascii "success"
  | .denied => ascii "denied"
  | .error => ascii "error"
  | .notFound => ascii "not-found"

structure AuditContext where
  runId : Option JsText
  sessionId : Option JsText
  toolName : Option JsText
deriving DecidableEq

/-- Input of `appendAudit`.  `metadata` is `undefined` where it is left out. -/
structure AuditEntryInput where
  actor : AuditActor
  action : JsText
  target : JsText
  decision : AuditDecision
  context : Option AuditContext
  metadata : Live
  ts : Option Rat

/-- `Omit<StoredAuditEntry, 'hash'>`. -/
structure BaseAuditEntry where
  seq : Nat
  ts : Rat
  actor : AuditActor
  action : JsText
  target : JsText
  decision : AuditDecision
  context : Option AuditContext
  metadata : Live
  prevHash : JsText

structure StoredAuditEntry extends BaseAuditEntry where
  hash : JsText

def optionalField (key : String) : Option JsText → List (JsText × Live)
  | some text => [(ascii key, .str text)]
  | none => []

def AuditActor.live (actor : AuditActor) : Live :=
  .obj ([(ascii "kind", .str actor.kind.text), (ascii "id", .str actor.id)] ++
    optionalField "label" actor.label)

def AuditContext.live (context : AuditContext) : Live :=
  .obj (optionalField "runId" context.runId ++
    optionalField "sessionId" context.sessionId ++
    optionalField "toolName" context.toolName)

def contextLive : Option AuditContext → Live
  | some context => context.live
  | none => .undefined

def BaseAuditEntry.fields (entry : BaseAuditEntry) : List (JsText × Live) :=
  [(ascii "seq", .num entry.seq), (ascii "ts", .num entry.ts),
    (ascii "actor", entry.actor.live), (ascii "action", .str entry.action),
    (ascii "target", .str entry.target),
    (ascii "decision", .str entry.decision.text),
    (ascii "context", contextLive entry.context),
    (ascii "metadata", entry.metadata), (ascii "prevHash", .str entry.prevHash)]

def StoredAuditEntry.live (entry : StoredAuditEntry) : Live :=
  .obj (entry.fields ++ [(ascii "hash", .str entry.hash)])

/-- Genesis prev-hash (64 zero hex chars). -/
def GENESIS_PREV_HASH : JsText := List.replicate 64 0x30

variable (js : Runtime)

def computeAuditHash (entry : BaseAuditEntry) : Except NotSerialisable JsText := do
  let canonical ← canonicalJson js (.obj entry.fields)
  pure (ascii (Bytes.toHex (sha256 (utf8 canonical))))

end Graphorin.Audit
