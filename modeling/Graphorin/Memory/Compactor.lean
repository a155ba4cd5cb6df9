import Graphorin.Memory.Envelope
import Graphorin.Lib.Transcript

namespace Graphorin.Memory.Compaction

open Lib Audit

/-! Compaction of a message buffer: clearing of old tool results and summaries of the
older messages. -/

inductive Part where
  | text (text : Text)
  | reasoning (text : Text)
  /-- An image, audio or file part. -/
  | media (data : JsText)
  deriving DecidableEq

inductive Content where
  | plain (text : Text)
  | parts (parts : List Part)
  deriving DecidableEq

structure ToolCall where
  toolCallId : JsText
  toolName : JsText
  /-- As they are rendered: the string, or the JSON text of the value. -/
  args : Text
  deriving DecidableEq

inductive Message where
  | system (content : Text)
  | user (content : Content) (userId : Option JsText)
  | assistant (content : Content) (toolCalls : Option (List ToolCall))
      (agentId : Option JsText)
  | tool (toolCallId : JsText) (content : Content)
  deriving DecidableEq

def Message.isUser : Message → Bool
  | .user _ _ => true
  | _ => false

def Message.isTool : Message → Bool
  | .tool _ _ => true
  | _ => false

def Message.role : Message → String
  | .system _ => "system"
  | .user _ _ => "user"
  | .assistant _ _ _ => "assistant"
  | .tool _ _ => "tool"

def Message.calls : Message → List ToolCall
  | .assistant _ (some toolCalls) _ => toolCalls
  | _ => []

def renderPart : Part → Text
  | .text text => text ++ literal "\n"
  | .reasoning text => text ++ literal "\n"
  | .media _ => literal "[non-text-part]\n"

def renderContent : Content → Text
  | .plain text => text
  | .parts parts => parts.flatMap renderPart

def renderCall (call : ToolCall) : Text :=
  literal "\n[tool-call:" ++ fresh call.toolName ++ literal "] " ++ call.args

def renderMessageText : Message → Text
  | .system content => content
  | .user content _ => renderContent content
  | .assistant content toolCalls _ =>
    renderContent content ++ (toolCalls.getD []).flatMap renderCall
  | .tool _ content => renderContent content

/-- A counter of its own for message lists is used in place of the text counter. -/
structure ContextTokenCounter where
  countText : JsText → Nat
  count : Option (List Message → Nat) := none

def countMessageTokens (messages : List Message) (counter : ContextTokenCounter) : Nat :=
  match counter.count with
  | some count => count messages
  | none =>
    (messages.map fun message =>
      counter.countText (renderMessageText message).units).sum

def CLEARED_TOOL_RESULT_MARKER : JsText := ascii "[cleared tool result"

def DEFAULT_KEEP_TOOL_USES : Int := 3

structure ClearInfo where
  toolCallId : JsText
  toolName : Option JsText
  clearedTokens : Nat

structure Handle where
  handleId : JsText
  preview : Option Text := none

/-- `keepToolUses` is what the option comes to: as many results are kept as a fraction has
whole ones. `readResultToolName` may be undefined, null or a name; `externalize` is told
which message of the buffer it is called for, since it may answer each call as it likes. -/
structure ClearToolResultsOptions where
  keepToolUses : Option Int := none
  clearAtLeast : Option Int := none
  excludeTools : List JsText := []
  placeholder : Option (ClearInfo → Text) := none
  externalize : Option (Nat → Text → ClearInfo → Except JsText Handle) := none
  readResultToolName : Option (Option JsText) := none
  clearToolInputs : Bool := false

structure ClearToolResultsOutcome where
  messages : List Message
  clearedIndices : List Nat
  reclaimedTokens : Nat

def defaultPlaceholder (info : ClearInfo) : Text :=
  fresh (CLEARED_TOOL_RESULT_MARKER ++ ascii " · " ++ info.toolName.getD (ascii "tool") ++
    ascii " · " ++ decimal info.clearedTokens ++
    ascii " tokens elided · re-run the tool if needed]")

def handlePlaceholder (info : ClearInfo) (handle : Handle)
    (readToolName : Option (Option JsText)) : Text :=
  let preview : Text :=
    match handle.preview with
    | some preview => if preview = [] then [] else literal " · " ++ preview
    | none => []
  let retrieval :=
    match readToolName with
    | some none => ascii "full result externalized to handle: " ++ handle.handleId
    | some (some name) =>
      ascii "full result via " ++ name ++ ascii " handle: " ++ handle.handleId
    | none => ascii "full result via read_result handle: " ++ handle.handleId
  fresh (CLEARED_TOOL_RESULT_MARKER ++ ascii " · " ++ info.toolName.getD (ascii "tool") ++
    ascii " · " ++ decimal info.clearedTokens ++ ascii " tokens · " ++ retrieval) ++
    preview ++ literal "]"

def isAlreadyCleared : Content → Bool
  | .plain text => startsWith Letter.unit CLEARED_TOOL_RESULT_MARKER text
  | .parts _ => false

/-- A later call of the same id has the last word. -/
def toolNameById (messages : List Message) (toolCallId : JsText) : Option JsText :=
  ((messages.flatMap Message.calls).reverse.find? fun call =>
    call.toolCallId == toolCallId).map (·.toolName)

structure ToolResult where
  index : Nat
  toolCallId : JsText
  content : Content

def toolResults (messages : List Message) : List ToolResult :=
  messages.zipIdx.filterMap fun
    | (.tool toolCallId content, index) =>
      if isAlreadyCleared content then none else some { index, toolCallId, content }
    | _ => none

structure Replacement where
  result : ToolResult
  info : ClearInfo
  placeholder : Text

section Clearing

variable (options : ClearToolResultsOptions) (counter : ContextTokenCounter)
  (messages : List Message)

/-- All but the latest `keepToolUses`, less those of the excluded tools. -/
def clearable : List ToolResult :=
  let results := toolResults messages
  let keptCutoff : Int :=
    results.length - max 0 (options.keepToolUses.getD DEFAULT_KEEP_TOOL_USES)
  (results.take keptCutoff.toNat).filter fun result =>
    match toolNameById messages result.toolCallId with
    | some name => !options.excludeTools.contains name
    | none => true

def tokensOf (result : ToolResult) (content : Content) : Nat :=
  countMessageTokens [.tool result.toolCallId content] counter

def replacementFor (result : ToolResult) : Replacement :=
  let info : ClearInfo :=
    { toolCallId := result.toolCallId
      toolName := toolNameById messages result.toolCallId
      clearedTokens := tokensOf counter result result.content }
  { result, info, placeholder := (options.placeholder.getD defaultPlaceholder) info }

def Replacement.saves (replacement : Replacement) : Nat :=
  replacement.info.clearedTokens -
    tokensOf counter replacement.result (.plain replacement.placeholder)

/-- With `externalize` the placeholder points at where the result went. -/
def externalizeResult (replacement : Replacement) : Except JsText Replacement :=
  match options.externalize with
  | none => .ok replacement
  | some externalize =>
    (externalize replacement.result.index (renderContent replacement.result.content)
      replacement.info).map fun handle =>
        { replacement with
          placeholder :=
            handlePlaceholder replacement.info handle options.readResultToolName }

def replaceResult (replacements : List Replacement) (index : Nat)
    (message : Message) : Message :=
  match replacements.find? fun replacement => replacement.result.index == index with
  | some replacement =>
    .tool replacement.result.toolCallId (.plain replacement.placeholder)
  | none => message

def elidedInput : Text :=
  literal "\x7b\"cleared\":\"[tool input elided by context clearing]\"\x7d"

def elideCall (cleared : List JsText) (call : ToolCall) : ToolCall :=
  if call.toolCallId ∈ cleared then { call with args := elidedInput } else call

def elideInputs (cleared : List JsText) : Message → Message
  | .assistant content (some toolCalls) agentId =>
    .assistant content (some (toolCalls.map (elideCall cleared))) agentId
  | message => message

def clearOldToolResults : Except JsText ClearToolResultsOutcome :=
  let replacements := (clearable options messages).map
    (replacementFor options counter messages)
  let reclaimable := (replacements.map (Replacement.saves counter)).sum
  if replacements = [] ∨ (reclaimable : Int) < options.clearAtLeast.getD 0 then
    .ok { messages, clearedIndices := [], reclaimedTokens := 0 }
  else
    (replacements.mapM (externalizeResult options)).map fun replacements =>
      let replaced := messages.mapIdx (replaceResult replacements)
      { messages :=
          if options.clearToolInputs then
            replaced.map (elideInputs (replacements.map (·.result.toolCallId)))
          else replaced
        clearedIndices := replacements.map (·.result.index)
        reclaimedTokens := reclaimable }

end Clearing

end Graphorin.Memory.Compaction
