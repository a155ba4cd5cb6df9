import Mathlib.Data.List.Basic
import Mathlib.Logic.Function.Basic

namespace Graphorin.Channels

/-! Pairing: the store of requests and paired peers, and the access controller over it. -/

structure PairingPeerRef where
  channelId : String
  accountId : String
  peerId : String
  deriving DecidableEq

/-- `issue` names the check that issued the code. It is bookkeeping of this model and has no
counterpart in the source; nothing below branches on it. -/
structure PairingRequestRecord where
  peer : PairingPeerRef
  code : String
  createdAt : Int
  expiresAt : Int
  issue : Nat
  deriving DecidableEq

structure PairedPeerRecord where
  peer : PairingPeerRef
  pairedAt : Int
  deriving DecidableEq

structure PairingStore where
  requests : List PairingRequestRecord := []
  paired : List PairedPeerRecord := []

def PairingRequestRecord.conflicts (request row : PairingRequestRecord) : Bool :=
  row.peer == request.peer ||
    (row.peer.channelId == request.peer.channelId && row.code == request.code)

def PairingRequestRecord.pendingOn (channelId : String) (now : Int)
    (row : PairingRequestRecord) : Bool :=
  row.peer.channelId == channelId && decide (now < row.expiresAt)

namespace PairingStore

variable (store : PairingStore)

/-- `INSERT OR REPLACE` deletes every row that is in conflict with the new one. -/
def upsertRequest (request : PairingRequestRecord) : PairingStore :=
  { store with requests := (store.requests.filter fun row => !request.conflicts row) ++ [request] }

def findRequestByPeer (peer : PairingPeerRef) : Option PairingRequestRecord :=
  store.requests.find? fun row => row.peer == peer

def findRequestByCode (channelId code : String) : Option PairingRequestRecord :=
  store.requests.find? fun row => row.peer.channelId == channelId && row.code == code

def deleteRequest (channelId code : String) : PairingStore :=
  { store with requests := store.requests.filter fun row =>
      !(row.peer.channelId == channelId && row.code == code) }

def countPendingRequests (channelId : String) (now : Int) : Nat :=
  store.requests.countP (PairingRequestRecord.pendingOn channelId now)

def pruneExpiredRequests (now : Int) : PairingStore :=
  { store with requests := store.requests.filter fun row => decide (now < row.expiresAt) }

def addPairedPeer (peer : PairedPeerRecord) : PairingStore :=
  { store with paired := (store.paired.filter fun row => row.peer != peer.peer) ++ [peer] }

def isPaired (peer : PairingPeerRef) : Bool := store.paired.any fun row => row.peer == peer

def removePairedPeer (peer : PairingPeerRef) : PairingStore :=
  { store with paired := store.paired.filter fun row => row.peer != peer }

end PairingStore

structure PairingPolicyOptions where
  ttlMs : Int := 60 * 60 * 1000
  maxPendingPerChannel : Int := 3

inductive DenyReason
  | disabled
  | notAllowlisted
  | pairingLimit
  deriving DecidableEq

inductive ChannelAccessDecision
  | allow
  | deny (reason : DenyReason)
  | pairingChallenge (code : String) (expiresAt : Int) (issued : Bool)
  deriving DecidableEq

inductive Stage
  | isPaired (identity : PairingPeerRef)
  | findRequestByPeer (identity : PairingPeerRef)
  | pruneExpiredRequests (identity : PairingPeerRef) (now : Int)
  | countPendingRequests (identity : PairingPeerRef) (now : Int)
  | upsertRequest (identity : PairingPeerRef) (now : Int)
  | findRequestByCode (channelId code : String)
  | deleteRequest (channelId code : String) (request : PairingRequestRecord)
  | addPairedPeer (request : PairingRequestRecord)
  | removePairedPeer (peer : PairingPeerRef)

inductive Reply
  | waits (stage : Stage)
  | decided (identity : PairingPeerRef) (decision : ChannelAccessDecision)
  /-- A challenge with a new code. -/
  | issued (request : PairingRequestRecord)
  /-- `approve` returns `null`. -/
  | refused
  | accepted (request : PairingRequestRecord)
  | revoked (peer : PairingPeerRef)

def advance (options : PairingPolicyOptions) (id : Nat) (clock : Int) (code : String)
    (store : PairingStore) : Stage → PairingStore × Reply
  | .isPaired identity =>
    (store, if store.isPaired identity then .decided identity .allow
      else .waits (.findRequestByPeer identity))
  | .findRequestByPeer identity =>
    match store.findRequestByPeer identity with
    | some pending =>
      (store, if clock < pending.expiresAt then
          .decided identity (.pairingChallenge pending.code pending.expiresAt false)
        else .waits (.pruneExpiredRequests identity clock))
    | none => (store, .waits (.pruneExpiredRequests identity clock))
  | .pruneExpiredRequests identity now =>
    (store.pruneExpiredRequests now, .waits (.countPendingRequests identity now))
  | .countPendingRequests identity now =>
    (store, if options.maxPendingPerChannel ≤
          store.countPendingRequests identity.channelId now then
        .decided identity (.deny .pairingLimit)
      else .waits (.upsertRequest identity now))
  | .upsertRequest identity now =>
    let request : PairingRequestRecord :=
      { peer := identity
        code
        createdAt := now
        expiresAt := now + options.ttlMs
        issue := id }
    (store.upsertRequest request, .issued request)
  | .findRequestByCode channelId code =>
    (store, match store.findRequestByCode channelId code with
      | none => .refused
      | some request => .waits (.deleteRequest channelId code request))
  | .deleteRequest channelId code request =>
    (store.deleteRequest channelId code, .waits (.addPairedPeer request))
  | .addPairedPeer request =>
    if request.expiresAt ≤ clock then (store, .refused)
    else (store.addPairedPeer ⟨request.peer, clock⟩, .accepted request)
  | .removePairedPeer peer => (store.removePairedPeer peer, .revoked peer)

inductive Request
  | check (identity : PairingPeerRef)
  | approve (channelId code : String)
  | revoke (peer : PairingPeerRef)

/-- What a call does before its first `await` ends with its first store call. -/
def Request.stage : Request → Stage
  | .check identity => .isPaired identity
  | .approve channelId code => .findRequestByCode channelId code
  | .revoke peer => .removePairedPeer peer

inductive Event
  | called (id : Nat) (request : Request) (clock : Int)
  | answered (id : Nat) (reply : Reply)

structure Call (ι : Type) where
  controller : ι
  stage : Stage

structure System (ι : Type) where
  store : PairingStore
  clock : Int
  nextId : Nat
  calls : Nat → Option (Call ι)
  /-- The latest first. -/
  log : List Event

/-- `code` is what `generateCode` returns, should the call ask for it. -/
inductive Action (ι : Type)
  | tick (clock : Int)
  | call (controller : ι) (request : Request)
  | move (id : Nat) (code : String)

namespace System

variable {ι : Type}

def start (clock : Int) : System ι :=
  { store := {}, clock, nextId := 0, calls := fun _ => none, log := [] }

variable (controllers : ι → PairingPolicyOptions)

def settle (system : System ι) (id : Nat) (controller : ι) (taken : PairingStore × Reply) :
    System ι :=
  match taken.2 with
  | .waits stage =>
    { system with
      store := taken.1
      calls := Function.update system.calls id (some ⟨controller, stage⟩) }
  | reply =>
    { system with
      store := taken.1
      calls := Function.update system.calls id none
      log := .answered id reply :: system.log }

def take (system : System ι) (id : Nat) (controller : ι) (stage : Stage) (code : String) :
    System ι :=
  system.settle id controller
    (advance (controllers controller) id system.clock code system.store stage)

def step (system : System ι) : Action ι → System ι
  | .tick clock => { system with clock := max system.clock clock }
  | .call controller request =>
    take controllers
      { system with
        nextId := system.nextId + 1
        log := .called system.nextId request system.clock :: system.log }
      system.nextId controller request.stage ""
  | .move id code =>
    match system.calls id with
    | none => system
    | some call => system.take controllers id call.controller call.stage code

def play (system : System ι) (actions : List (Action ι)) : System ι :=
  actions.foldl (step controllers) system

end System

end Graphorin.Channels
