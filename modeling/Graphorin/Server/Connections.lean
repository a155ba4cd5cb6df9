import Graphorin.Server.Indexes
import Graphorin.Server.RunState

namespace Graphorin.Server

open Graphorin.Lib
open Auth (ParsedScope scopeMatches tryParseScope)

/-! WebSocket connections on one dispatcher. -/

inductive ClientMessage
  | initializeRequest (id : RpcId)
  | ping (id : RpcId) (nonce : Option String)
  | subscribe (id : RpcId) (subject : String) (sinceEventId : Option String)
  | unsubscribe (id : RpcId) (subscriptionId : String)
  | runCancel (id : RpcId) (runId : String)
  | cancelled (requestId : String)
deriving DecidableEq

/-- What comes in on a socket; `invalid` has the id it failed with, if any. -/
inductive Incoming
  | notJson
  | invalid (id : Option RpcId)
  | message (message : ClientMessage)
deriving DecidableEq

def ClientMessage.rpcId : ClientMessage → RpcId
  | .initializeRequest id => id
  | .ping id _ => id
  | .subscribe id _ _ => id
  | .unsubscribe id _ => id
  | .runCancel id _ => id
  | .cancelled _ => .number 0

/-- `RPC_ERROR_CODES`. -/
inductive RpcErrorCode
  | parseError
  | invalidRequest
  | methodNotFound
  | invalidParams
  | scopeDenied
  | protocolViolation
  | runNotFound
  | subscriptionNotFound
deriving DecidableEq

def RpcErrorCode.value : RpcErrorCode → Int
  | .parseError => -32700
  | .invalidRequest => -32600
  | .methodNotFound => -32601
  | .invalidParams => -32602
  | .scopeDenied => -32003
  | .protocolViolation => -32005
  | .runNotFound => -32010
  | .subscriptionNotFound => -32011

/-- `mapSubscribeErrorCode`.  Where `subscribe` throws, nothing is answered. -/
def mapSubscribeErrorCode : SubscribeFailure → Option RpcErrorCode
  | .scopeDenied => some .scopeDenied
  | .subjectWildcard => some .invalidParams
  | .subjectUnknown => some .methodNotFound
  | .subjectMalformed => some .invalidParams
  | .threw => none

def mapSubscribeErrorMessage (failure : SubscribeFailure) (subject : String) :
    String :=
  match failure with
  | .scopeDenied => "Token lacks required scope for subject '" ++ subject ++ "'."
  | .subjectWildcard =>
    "Wildcard subjects are not supported in this version. Subject: '" ++ subject ++
      "'."
  | .subjectUnknown => "Unknown subject grammar: '" ++ subject ++ "'."
  | .subjectMalformed => "Subject '" ++ subject ++ "' is malformed."
  | .threw => ""

structure Connection where
  handle : WsSubscriberHandle
  initialized : Bool
  registered : Bool
deriving DecidableEq

structure WsServer (π σ : Type) where
  dispatcher : WsDispatcher π
  runs : RunStateTracker σ
  connections : OrderedMap String Connection

/-- `requiredRunScope(snapshot, 'control')`. -/
def requiredRunScope : RunDescriptor → String
  | .agent agentId _ _ => "agents:invoke:" ++ agentId
  | .workflow workflowId _ _ _ => "workflows:execute:" ++ workflowId

def checkScope (granted : List ParsedScope) (required : String) : Bool :=
  (tryParseScope required).any fun required => granted.any fun scope => scopeMatches scope required

namespace WsServer

variable {π σ : Type} (setup : DispatcherSetup π)

def empty : WsServer π σ := ⟨.empty, .empty, .empty⟩

def send (connection : Connection) (message : ServerMessage π)
    (server : WsServer π σ) : WsServer π σ :=
  { server with
    dispatcher := server.dispatcher.deliver (.sent connection.handle.id message) }

def sendRpcError (connection : Connection) (id : RpcId) (code : RpcErrorCode)
    (message : String) (server : WsServer π σ) : WsServer π σ :=
  server.send connection (.rpcFailure id code.value message)

def closeSocket (connection : Connection) (server : WsServer π σ) : WsServer π σ :=
  { server with
    dispatcher := server.dispatcher.deliver
      (.closed connection.handle.id 4008 "protocol.violation") }

def onOpen (handle : WsSubscriberHandle) (server : WsServer π σ) : WsServer π σ :=
  { server with
    dispatcher := server.dispatcher.registerSubscriber handle
    connections := server.connections.set handle.id ⟨handle, false, true⟩ }

/-- A notification that may not cancel is ignored. -/
def onCancelled (now : Int) (connection : Connection) (requestId : String)
    (server : WsServer π σ) : WsServer π σ :=
  if connection.initialized then
    match server.runs.records.get requestId with
    | none => server
    | some record =>
      if checkScope connection.handle.grantedScopes
          (requiredRunScope record.descriptor) then
        { server with runs := (server.runs.abort now requestId).2 }
      else server
  else server

def onSubscribe (now : Int) (connection : Connection) (id : RpcId)
    (subject subscriptionId : String) (sinceEventId : Option String)
    (server : WsServer π σ) : WsServer π σ :=
  let (result, dispatcher) := server.dispatcher.subscribe setup now
    connection.handle.id subject subscriptionId sinceEventId
  let server := { server with dispatcher := dispatcher }
  match result with
  | .error failure =>
    match mapSubscribeErrorCode failure with
    | none => server
    | some code =>
      server.sendRpcError connection id code
        (mapSubscribeErrorMessage failure subject)
  | .ok subscribed =>
    -- the reply reaches the wire before the replayed frames
    let server := server.send connection (.rpcSuccess id (.subscribed subscriptionId
      subject subscribed.snapshotEventId subscribed.replay.events.length))
    let server := server.send connection
      (.subscribed subscriptionId subject subscribed.snapshotEventId)
    { server with
      dispatcher := server.dispatcher.dispatchReplay setup now subscribed }

def onUnsubscribe (connection : Connection) (id : RpcId) (subscriptionId : String)
    (server : WsServer π σ) : WsServer π σ :=
  let (removed, dispatcher) := server.dispatcher.unsubscribe subscriptionId
  let server := { server with dispatcher := dispatcher }
  if removed then
    (server.send connection (.rpcSuccess id (.unsubscribed subscriptionId))).send
      connection (.unsubscribed subscriptionId)
  else
    server.sendRpcError connection id .subscriptionNotFound
      ("Subscription '" ++ subscriptionId ++ "' not active.")

def onRunCancel (now : Int) (connection : Connection) (id : RpcId) (runId : String)
    (server : WsServer π σ) : WsServer π σ :=
  match server.runs.records.get runId with
  | none =>
    server.sendRpcError connection id .runNotFound
      ("Run '" ++ runId ++ "' is not active.")
  | some record =>
    if checkScope connection.handle.grantedScopes (requiredRunScope record.descriptor) then
      { server with runs := (server.runs.abort now runId).2 }.send connection
        (.rpcSuccess id (.cancelled runId))
    else
      server.sendRpcError connection id .scopeDenied
        ("Token lacks required scope '" ++ requiredRunScope record.descriptor ++ "'.")

/-- `onMessage`.  The subscription id is the one drawn should this be a
subscribe. -/
def onMessage (now : Int) (connection : Connection) (subscriptionId : String)
    (incoming : Incoming) (server : WsServer π σ) : WsServer π σ :=
  match incoming with
  | .notJson =>
    (server.sendRpcError connection (.number 0) .parseError
      "Frame is not valid JSON.").closeSocket connection
  | .invalid id =>
    (server.sendRpcError connection (id.getD (.number 0)) .invalidRequest
      "Frame failed schema validation.").closeSocket connection
  | .message (.cancelled requestId) => server.onCancelled now connection requestId
  | .message (.initializeRequest id) =>
    let connections := server.connections.set connection.handle.id
      { connection with initialized := true }
    { server with connections := connections }.send connection
      (.rpcSuccess id .initialized)
  | .message (.ping id nonce) =>
    (server.send connection (.pong nonce)).send connection (.rpcSuccess id .ok)
  | .message message =>
    if connection.initialized then
      match message with
      | .subscribe id subject sinceEventId =>
        server.onSubscribe setup now connection id subject subscriptionId
          sinceEventId
      | .unsubscribe id subscriptionId =>
        server.onUnsubscribe connection id subscriptionId
      | .runCancel id runId => server.onRunCancel now connection id runId
      | _ => server
    else
      server.sendRpcError connection message.rpcId .protocolViolation
        "Send `initialize` before any other RPC."

/-- `onClose`, and `onError`. -/
def onClose (connection : Connection) (server : WsServer π σ) : WsServer π σ :=
  if connection.registered then
    { server with
      dispatcher := server.dispatcher.unregister connection.handle.id
      connections := server.connections.set connection.handle.id
        { connection with registered := false } }
  else server

end WsServer

end Graphorin.Server
