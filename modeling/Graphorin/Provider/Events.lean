import Graphorin.Provider.Usage
import Graphorin.RunState.Parse

namespace Graphorin.Provider

open Audit RunState

/-! What a provider streams. -/

inductive FinishReason
  | stop
  | length
  | toolCalls
  | contentFilter
  | error
  | aborted
  deriving DecidableEq

inductive ProviderEvent
  | streamStart (providerName modelId : JsText)
  | reasoningDelta (delta : JsText)
  | reasoningEnd
  | textDelta (delta : JsText)
  | toolCallStart (toolCallId toolName : JsText)
  | toolCallInputDelta (toolCallId argsDelta : JsText)
  | toolCallEnd (toolCallId : JsText) (finalArgs : Json)
  | file (mimeType : JsText)
  | source (uri : JsText)
  | finish (finishReason : FinishReason) (usage : Usage)
  | error (message : JsText)

end Graphorin.Provider
