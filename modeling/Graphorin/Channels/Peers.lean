import Graphorin.Channels.Pairing

namespace Graphorin.Channels

/-! Which peers get in. -/

/-- The peer a check is for. -/
def Stage.checks : Stage → Option PairingPeerRef
  | .isPaired identity => some identity
  | .findRequestByPeer identity => some identity
  | .pruneExpiredRequests identity _ => some identity
  | .countPendingRequests identity _ => some identity
  | .upsertRequest identity _ => some identity
  | _ => none

/-- The request an approval has found. -/
def Stage.found : Stage → Option PairingRequestRecord
  | .deleteRequest _ _ request => some request
  | .addPairedPeer request => some request
  | _ => none

def Reply.ended : Reply → Prop
  | .waits _ => False
  | _ => True

/-- An approval of a code that was issued to the peer, called before the code ran out, and no
revocation of the peer since that call. -/
def Approved (log : List Event) (peer : PairingPeerRef) : Prop :=
  ∃ newer older id calledAt request,
    log = newer ++ .called id (.approve peer.channelId request.code) calledAt :: older ∧
      request.peer = peer ∧ .answered request.issue (.issued request) ∈ older ∧
      .answered id (.accepted request) ∈ newer ∧ calledAt < request.expiresAt ∧
      ∀ other, .answered other (.revoked peer) ∉ newer

def Found (log : List Event) (clock : Int) (id : Nat) (request : PairingRequestRecord) : Prop :=
  ∃ newer older calledAt,
    log = newer ++ .called id (.approve request.peer.channelId request.code) calledAt :: older ∧
      .answered request.issue (.issued request) ∈ older ∧ calledAt ≤ clock ∧
      ∀ other, .answered other (.revoked request.peer) ∉ newer

theorem Approved.cons {log : List Event} {peer : PairingPeerRef} (approved : Approved log peer)
    {event : Event} (kept : ∀ other, event ≠ .answered other (.revoked peer)) :
    Approved (event :: log) peer := by
  obtain ⟨newer, older, id, calledAt, request, rfl, own, issued, accepted, early, unrevoked⟩ :=
    approved
  refine ⟨event :: newer, older, id, calledAt, request, rfl, own, issued,
    List.mem_cons_of_mem _ accepted, early, ?_⟩
  intro other member
  cases List.mem_cons.mp member with
  | inl here => exact kept other here.symm
  | inr earlier => exact unrevoked other earlier

theorem Found.cons {log : List Event} {clock : Int} {id : Nat} {request : PairingRequestRecord}
    (found : Found log clock id request) {event : Event}
    (kept : ∀ other, event ≠ .answered other (.revoked request.peer)) :
    Found (event :: log) clock id request := by
  obtain ⟨newer, older, calledAt, rfl, issued, early, unrevoked⟩ := found
  refine ⟨event :: newer, older, calledAt, rfl, issued, early, ?_⟩
  intro other member
  cases List.mem_cons.mp member with
  | inl here => exact kept other here.symm
  | inr earlier => exact unrevoked other earlier

variable {id : Nat}

theorem Found.later {log : List Event} {clock later : Int} {request : PairingRequestRecord}
    (found : Found log clock id request) (after : clock ≤ later) :
    Found log later id request := by
  obtain ⟨newer, older, calledAt, split, issued, early, unrevoked⟩ := found
  exact ⟨newer, older, calledAt, split, issued, Int.le_trans early after, unrevoked⟩

theorem Found.accept (found : Found log clock id request)
    (valid : clock < request.expiresAt) :
    Approved (.answered id (.accepted request) :: log) request.peer := by
  obtain ⟨newer, older, calledAt, rfl, issued, early, unrevoked⟩ := found
  refine ⟨_ :: newer, older, id, calledAt, request, rfl, rfl, issued, List.mem_cons_self,
    by omega, ?_⟩
  intro other member
  cases List.mem_cons.mp member with
  | inl here => cases here
  | inr earlier => exact unrevoked other earlier

inductive Advances (options : PairingPolicyOptions) (id : Nat) (clock : Int) (code : String)
    (store : PairingStore) : Stage → PairingStore → Reply → Prop
  | allowed (row : PairedPeerRecord) (paired : row ∈ store.paired) :
      Advances options id clock code store (.isPaired row.peer) store
        (.decided row.peer .allow)
  | unpaired (identity : PairingPeerRef) :
      Advances options id clock code store (.isPaired identity) store
        (.waits (.findRequestByPeer identity))
  | pending (identity : PairingPeerRef) (request : PairingRequestRecord) :
      Advances options id clock code store (.findRequestByPeer identity) store
        (.decided identity (.pairingChallenge request.code request.expiresAt false))
  | unasked (identity : PairingPeerRef) :
      Advances options id clock code store (.findRequestByPeer identity) store
        (.waits (.pruneExpiredRequests identity clock))
  | pruned (identity : PairingPeerRef) (now : Int) :
      Advances options id clock code store (.pruneExpiredRequests identity now)
        (store.pruneExpiredRequests now) (.waits (.countPendingRequests identity now))
  | crowded (identity : PairingPeerRef) (now : Int) :
      Advances options id clock code store (.countPendingRequests identity now) store
        (.decided identity (.deny .pairingLimit))
  | roomy (identity : PairingPeerRef) (now : Int)
      (crowd : (store.countPendingRequests identity.channelId now : Int) <
        options.maxPendingPerChannel) :
      Advances options id clock code store (.countPendingRequests identity now) store
        (.waits (.upsertRequest identity now))
  | issued (identity : PairingPeerRef) (now : Int) :
      Advances options id clock code store (.upsertRequest identity now)
        (store.upsertRequest ⟨identity, code, now, now + options.ttlMs, id⟩)
        (.issued ⟨identity, code, now, now + options.ttlMs, id⟩)
  | unknown (channelId code' : String) :
      Advances options id clock code store (.findRequestByCode channelId code') store .refused
  | found (channelId code' : String) (request : PairingRequestRecord)
      (found : store.findRequestByCode channelId code' = some request) :
      Advances options id clock code store (.findRequestByCode channelId code') store
        (.waits (.deleteRequest channelId code' request))
  | deleted (channelId code' : String) (request : PairingRequestRecord) :
      Advances options id clock code store (.deleteRequest channelId code' request)
        (store.deleteRequest channelId code') (.waits (.addPairedPeer request))
  | expired (request : PairingRequestRecord) :
      Advances options id clock code store (.addPairedPeer request) store .refused
  | accepted (request : PairingRequestRecord) (valid : clock < request.expiresAt) :
      Advances options id clock code store (.addPairedPeer request)
        (store.addPairedPeer ⟨request.peer, clock⟩) (.accepted request)
  | revoked (peer : PairingPeerRef) :
      Advances options id clock code store (.removePairedPeer peer)
        (store.removePairedPeer peer) (.revoked peer)

theorem advance_advances (options : PairingPolicyOptions) (id : Nat) (clock : Int)
    (code : String) (store : PairingStore) (stage : Stage) :
    Advances options id clock code store stage
      (advance options id clock code store stage).1
      (advance options id clock code store stage).2 := by
  cases stage with
  | isPaired identity =>
    rw [advance]
    split
    · rename_i paired
      obtain ⟨row, member, same⟩ := List.any_eq_true.mp paired
      obtain rfl := beq_iff_eq.mp same
      exact .allowed row member
    · exact .unpaired identity
  | findRequestByPeer identity =>
    rw [advance]
    split
    · rename_i request _
      dsimp only
      split
      · exact .pending identity request
      · exact .unasked identity
    · exact .unasked identity
  | pruneExpiredRequests identity now => exact .pruned identity now
  | countPendingRequests identity now =>
    rw [advance]
    split
    · exact .crowded identity now
    · rename_i room
      exact .roomy identity now (Int.not_le.mp room)
  | upsertRequest identity now => exact .issued identity now
  | findRequestByCode channelId code =>
    rw [advance]
    split
    · exact .unknown channelId code
    · rename_i request found
      exact .found channelId code request found
  | deleteRequest channelId code request => exact .deleted channelId code request
  | addPairedPeer request =>
    rw [advance]
    split
    · exact .expired request
    · rename_i valid
      exact .accepted request (by omega)
  | removePairedPeer peer => exact .revoked peer

def PairingStore.countOthers (store : PairingStore) (identity : PairingPeerRef) (now : Int) :
    Nat :=
  store.requests.countP fun row =>
    row.peer != identity && row.pendingOn identity.channelId now

variable {ι : Type} {controllers : ι → PairingPolicyOptions} {cap : Int}

/-- A new code is none that an unexpired request of another peer has, and is written while
no check of another peer on the channel is between its count and its write; no approval finds
a request that another has found and not deleted yet; nobody is revoked while an approval
that has found a request of theirs goes on. -/
def OrderlyTurn (system : System ι) (id : Nat) (code : String) : Stage → Prop
  | .upsertRequest identity _ =>
    (∀ row ∈ system.store.requests, row.peer ≠ identity →
      row.peer.channelId = identity.channelId → row.code = code →
        row.expiresAt ≤ system.clock) ∧
      ∀ other call identity' now, other ≠ id → system.calls other = some call →
        call.stage = .upsertRequest identity' now →
          identity' = identity ∨ identity'.channelId ≠ identity.channelId
  | .findRequestByCode channelId code' =>
    ∀ other call request, system.calls other = some call →
      call.stage = .deleteRequest channelId code' request →
        system.store.findRequestByCode channelId code' ≠ some request
  | .removePairedPeer peer =>
    ∀ other call request, system.calls other = some call →
      call.stage.found = some request → request.peer ≠ peer
  | _ => True

def Orderly (system : System ι) : Action ι → Prop
  | .tick _ => True
  | .call _ request => OrderlyTurn system system.nextId "" request.stage
  | .move id code => ∀ call, system.calls id = some call →
      OrderlyTurn system id code call.stage

def OrderlyRun (controllers : ι → PairingPolicyOptions) :
    System ι → List (Action ι) → Prop
  | _, [] => True
  | system, action :: rest =>
    Orderly system action ∧ OrderlyRun controllers (system.step controllers action) rest

def System.register (system : System ι) (controller : ι) (request : Request) : System ι :=
  { system with
    nextId := system.nextId + 1
    calls := Function.update system.calls system.nextId (some ⟨controller, request.stage⟩)
    log := .called system.nextId request system.clock :: system.log }

theorem step_call (system : System ι) (controller : ι) (request : Request) :
    system.step controllers (.call controller request) =
      (system.register controller request).take controllers system.nextId controller
        request.stage "" := by
  simp only [System.step, System.take, System.register]
  generalize advance _ _ _ _ _ _ = taken
  obtain ⟨store, reply⟩ := taken
  cases reply <;> simp [System.settle, Function.update_idem]

def Stage.time : Stage → Option Int
  | .pruneExpiredRequests _ now => some now
  | .countPendingRequests _ now => some now
  | .upsertRequest _ now => some now
  | _ => none

structure Inv (cap : Int) (system : System ι) : Prop where
  unused : ∀ id, system.nextId ≤ id → system.calls id = none
  settled : ∀ id reply, .answered id reply ∈ system.log →
    id < system.nextId ∧ system.calls id = none
  single : ∀ id reply reply', .answered id reply ∈ system.log →
    .answered id reply' ∈ system.log → reply = reply'
  known : ∀ row ∈ system.store.requests, .answered row.issue (.issued row) ∈ system.log
  timed : ∀ id call now, system.calls id = some call → call.stage.time = some now →
    now ≤ system.clock
  held : ∀ id call request, system.calls id = some call →
    call.stage.found = some request → Found system.log system.clock id request
  asked : ∀ id call channelId code request, system.calls id = some call →
    call.stage = .deleteRequest channelId code request →
      request.peer.channelId = channelId ∧ request.code = code
  gone : ∀ id call request, system.calls id = some call →
    call.stage = .addPairedPeer request →
      ∀ row ∈ system.store.requests, row.issue ≠ request.issue
  alone : ∀ id call request id' call' request', system.calls id = some call →
    call.stage.found = some request → system.calls id' = some call' →
      call'.stage.found = some request' → request.issue = request'.issue → id = id'
  spent : ∀ id request, .answered id (.accepted request) ∈ system.log →
    .answered request.issue (.issued request) ∈ system.log ∧
      (∀ row ∈ system.store.requests, row.issue ≠ request.issue) ∧
      ∀ other call request', system.calls other = some call →
        call.stage.found = some request' → request'.issue ≠ request.issue
  once : ∀ id request id' request', .answered id (.accepted request) ∈ system.log →
    .answered id' (.accepted request') ∈ system.log → request.issue = request'.issue → id = id'
  paired : ∀ row ∈ system.store.paired, Approved system.log row.peer
  allowed : ∀ newer older id identity,
    system.log = newer ++ .answered id (.decided identity .allow) :: older →
      Approved older identity
  capped : 0 ≤ cap → ∀ channelId,
    system.store.countPendingRequests channelId system.clock ≤ cap
  /-- What a check has counted still holds when it writes. -/
  room : ∀ id call identity now, system.calls id = some call →
    call.stage = .upsertRequest identity now →
      (system.store.countOthers identity system.clock : Int) < cap

theorem running_update (running : Function.update calls id new other = some call) :
    (other = id ∧ new = some call) ∨ (other ≠ id ∧ calls other = some call) := by
  by_cases same : other = id
  · subst same
    rw [Function.update_self] at running
    exact .inl ⟨rfl, running⟩
  · rw [Function.update_of_ne same] at running
    exact .inr ⟨same, running⟩

theorem inv_start (clock : Int) : Inv cap (System.start clock : System ι) where
  unused _ _ := rfl
  settled _ _ member := absurd member List.not_mem_nil
  single _ _ _ member := absurd member List.not_mem_nil
  known _ member := absurd member List.not_mem_nil
  timed _ _ _ running := nomatch running
  held _ _ _ running := nomatch running
  asked _ _ _ _ _ running := nomatch running
  gone _ _ _ running := nomatch running
  alone _ _ _ _ _ _ running := nomatch running
  spent _ _ member := absurd member List.not_mem_nil
  once _ _ _ _ member := absurd member List.not_mem_nil
  paired _ member := absurd member List.not_mem_nil
  allowed newer older id identity split := by
    have nothing : ([] : List Event) = newer ++ _ :: older := split
    simp at nothing
  capped positive _ := positive
  room _ _ _ _ running := nomatch running

theorem PairingRequestRecord.pendingOn_later {channelId : String} {clock later : Int}
    (after : clock ≤ later) {row : PairingRequestRecord}
    (pending : row.pendingOn channelId later = true) : row.pendingOn channelId clock = true := by
  rw [PairingRequestRecord.pendingOn, Bool.and_eq_true, decide_eq_true_eq] at pending ⊢
  exact ⟨pending.1, Int.lt_of_le_of_lt after pending.2⟩

theorem PairingStore.countOthers_le (store : PairingStore) (identity : PairingPeerRef)
    {clock later : Int} (after : clock ≤ later) :
    store.countOthers identity later ≤
      store.countPendingRequests identity.channelId clock := by
  apply List.countP_mono_left
  intro row _ counted
  exact PairingRequestRecord.pendingOn_later after (Bool.and_eq_true .. ▸ counted).2

theorem PairingStore.countOthers_later (store : PairingStore) (identity : PairingPeerRef)
    {clock later : Int} (after : clock ≤ later) :
    store.countOthers identity later ≤ store.countOthers identity clock := by
  apply List.countP_mono_left
  intro row _ counted
  rw [Bool.and_eq_true] at counted ⊢
  exact ⟨counted.1, PairingRequestRecord.pendingOn_later after counted.2⟩

namespace Inv

variable {system : System ι}

theorem tick (inv : Inv cap system) (clock : Int) :
    Inv cap (system.step controllers (.tick clock)) := by
  have later : system.clock ≤ max system.clock clock := Int.le_max_left ..
  exact {
    unused := inv.unused
    settled := inv.settled
    single := inv.single
    known := inv.known
    timed := fun id call now running stage => Int.le_trans (inv.timed id call now running stage)
      later
    held := fun id call request running found => (inv.held id call request running found).later
      later
    asked := inv.asked
    gone := inv.gone
    alone := inv.alone
    spent := inv.spent
    once := inv.once
    paired := inv.paired
    allowed := inv.allowed
    capped := by
      intro positive channelId
      refine Int.le_trans (Int.ofNat_le.mpr ?_) (inv.capped positive channelId)
      apply List.countP_mono_left
      exact fun row _ => PairingRequestRecord.pendingOn_later later
    room := by
      intro id call identity now running stage
      have counted := inv.room id call identity now running stage
      have fewer := system.store.countOthers_later identity later
      exact Int.lt_of_le_of_lt (Int.ofNat_le.mpr fewer) counted }

theorem register (inv : Inv cap system) (controller : ι) (request : Request) :
    Inv cap (system.register controller request) := by
  have fresh : ∀ other call, (system.register controller request).calls other = some call →
      (other = system.nextId ∧ call = ⟨controller, request.stage⟩) ∨
        system.calls other = some call := by
    intro other call running
    rcases running_update running with ⟨same, new⟩ | ⟨_, running⟩
    · exact .inl ⟨same, (Option.some.inj new).symm⟩
    · exact .inr running
  have answered : ∀ id reply, .answered id reply ∈ (system.register controller request).log →
      .answered id reply ∈ system.log := by
    intro id reply member
    cases List.mem_cons.mp member with
    | inl here => cases here
    | inr earlier => exact earlier
  have empty : request.stage.found = none ∧ request.stage.time = none := by
    cases request <;> exact ⟨rfl, rfl⟩
  have found : ∀ other call request', (system.register controller request).calls other =
      some call → call.stage.found = some request' → system.calls other = some call := by
    intro other call request' running found
    rcases fresh other call running with ⟨-, rfl⟩ | running
    · rw [empty.1] at found
      cases found
    · exact running
  exact {
    unused := by
      intro id below
      have below' : system.nextId + 1 ≤ id := below
      show Function.update _ _ _ _ = _
      rw [Function.update_of_ne (by omega)]
      exact inv.unused id (by omega)
    settled := by
      intro id reply member
      obtain ⟨below, none⟩ := inv.settled id reply (answered id reply member)
      refine ⟨Nat.lt_succ_of_lt below, ?_⟩
      show Function.update _ _ _ _ = _
      rw [Function.update_of_ne (by omega)]
      exact none
    single := fun id reply reply' member member' =>
      inv.single id reply reply' (answered id reply member) (answered id reply' member')
    known := fun row member => List.mem_cons_of_mem _ (inv.known row member)
    timed := by
      intro id call now running time
      rcases fresh id call running with ⟨-, rfl⟩ | running
      · rw [empty.2] at time
        cases time
      · exact inv.timed id call now running time
    held := by
      intro id call request' running holds
      exact (inv.held id call request' (found id call request' running holds) holds).cons nofun
    asked := by
      intro id call channelId code request' running stage
      exact inv.asked id call channelId code request'
        (found id call request' running (by rw [stage]; rfl)) stage
    gone := by
      intro id call request' running stage
      exact inv.gone id call request' (found id call request' running (by rw [stage]; rfl)) stage
    alone := by
      intro id call request' id' call' request'' running holds running' holds' same
      exact inv.alone id call request' id' call' request''
        (found id call request' running holds) holds (found id' call' request'' running' holds')
        holds' same
    spent := by
      intro id request' member
      obtain ⟨issued, rows, others⟩ := inv.spent id request' (answered id _ member)
      exact ⟨List.mem_cons_of_mem _ issued, rows, fun other call request'' running holds =>
        others other call request'' (found other call request'' running holds) holds⟩
    once := fun id request' id' request'' member member' =>
      inv.once id request' id' request'' (answered id _ member) (answered id' _ member')
    paired := fun row member => (inv.paired row member).cons nofun
    allowed := by
      intro newer older id identity split
      cases newer with
      | nil => cases split
      | cons _ newer => exact inv.allowed newer older id identity (List.cons.inj split).2
    capped := inv.capped
    room := by
      intro id call identity now running stage
      rcases fresh id call running with ⟨-, rfl⟩ | running
      · have time := empty.2
        rw [show request.stage = _ from stage] at time
        cases time
      · exact inv.room id call identity now running stage }

variable {id : Nat} {call : Call ι} {controller : ι} {store : PairingStore}

/-- What a store call leaves of the bounds for the calls that go on. -/
structure Fits (cap : Int) (system : System ι) (id : Nat) (store : PairingStore) : Prop where
  capped : 0 ≤ cap → ∀ channelId, store.countPendingRequests channelId system.clock ≤ cap
  room : ∀ other call identity now, other ≠ id → system.calls other = some call →
    call.stage = .upsertRequest identity now →
      (store.countOthers identity system.clock : Int) < cap

theorem fits (inv : Inv cap system) (id : Nat)
    (rows : store.requests.Sublist system.store.requests) : Fits cap system id store where
  capped positive channelId :=
    Int.le_trans (Int.ofNat_le.mpr rows.countP_le) (inv.capped positive channelId)
  room other call identity now _ running stage :=
    Int.lt_of_le_of_lt (Int.ofNat_le.mpr rows.countP_le)
      (inv.room other call identity now running stage)

theorem waits (inv : Inv cap system) (running : system.calls id = some call)
    (rows : store.requests.Sublist system.store.requests)
    (paired : store.paired = system.store.paired)
    (time : ∀ now, stage.time = some now → now ≤ system.clock)
    (held : ∀ request, stage.found = some request → Found system.log system.clock id request)
    (asked : ∀ channelId code request, stage = .deleteRequest channelId code request →
      request.peer.channelId = channelId ∧ request.code = code)
    (gone : ∀ request, stage = .addPairedPeer request → ∀ row ∈ store.requests, row.issue ≠
      request.issue)
    (alone : ∀ request other call' request', stage.found = some request → other ≠ id →
      system.calls other = some call' → call'.stage.found = some request' → request.issue ≠
        request'.issue)
    (unspent : ∀ request other request', stage.found = some request →
      .answered other (.accepted request') ∈ system.log → request.issue ≠ request'.issue)
    (room : ∀ identity now, stage = .upsertRequest identity now →
      (store.countOthers identity system.clock : Int) < cap) :
    Inv cap (system.settle id controller (store, .waits stage)) where
  unused := by
    intro other below
    have apart : other ≠ id := by
      rintro rfl
      rw [inv.unused other below] at running
      cases running
    show Function.update _ _ _ _ = _
    rw [Function.update_of_ne apart]
    exact inv.unused other below
  settled := by
    intro other reply member
    obtain ⟨below, none⟩ := inv.settled other reply member
    have apart : other ≠ id := by
      rintro rfl
      rw [none] at running
      cases running
    refine ⟨below, ?_⟩
    show Function.update _ _ _ _ = _
    rw [Function.update_of_ne apart]
    exact none
  single := inv.single
  known row member := inv.known row (rows.subset member)
  timed := by
    intro other call' now running' time'
    rcases running_update running' with ⟨-, new⟩ | ⟨-, running'⟩
    · cases new
      exact time now time'
    · exact inv.timed other call' now running' time'
  held := by
    intro other call' request running' found
    rcases running_update running' with ⟨rfl, new⟩ | ⟨-, running'⟩
    · cases new
      exact held request found
    · exact inv.held other call' request running' found
  asked := by
    intro other call' channelId code request running' here
    rcases running_update running' with ⟨-, new⟩ | ⟨-, running'⟩
    · cases new
      exact asked channelId code request here
    · exact inv.asked other call' channelId code request running' here
  gone := by
    intro other call' request running' here row member
    rcases running_update running' with ⟨-, new⟩ | ⟨-, running'⟩
    · cases new
      exact gone request here row member
    · exact inv.gone other call' request running' here row (rows.subset member)
  alone := by
    intro first call' request second call'' request' running' found running'' found' same
    rcases running_update running' with ⟨here, new⟩ | ⟨apart, before⟩ <;>
      rcases running_update running'' with ⟨here', new'⟩ | ⟨apart', before'⟩
    · rw [here, here']
    · cases new
      exact absurd same (alone request second call'' request' found apart' before' found')
    · cases new'
      exact absurd same.symm (alone request' first call' request found' apart before found)
    · exact inv.alone first call' request second call'' request' before found before' found' same
  spent := by
    intro other request member
    obtain ⟨issued, none, others⟩ := inv.spent other request member
    refine ⟨issued, fun row member => none row (rows.subset member), ?_⟩
    intro third call' request' running' found
    rcases running_update running' with ⟨-, new⟩ | ⟨-, running'⟩
    · cases new
      exact unspent request' other request found member
    · exact others third call' request' running' found
  once := inv.once
  paired row member := inv.paired row (paired ▸ member)
  allowed := inv.allowed
  capped := (inv.fits id rows).capped
  room := by
    intro other call' identity now running' here
    rcases running_update running' with ⟨-, new⟩ | ⟨apart, running'⟩
    · cases new
      exact room identity now here
    · exact (inv.fits id rows).room other call' identity now apart running' here

end Inv

def System.close (system : System ι) (id : Nat) (store : PairingStore) (reply : Reply) :
    System ι :=
  { system with
    store
    calls := Function.update system.calls id none
    log := .answered id reply :: system.log }

/-- How a call may end: what its last store call does to the rows, and what its reply says. -/
structure Ends (system : System ι) (id : Nat) (call : Call ι) (store : PairingStore)
    (reply : Reply) : Prop where
  running : system.calls id = some call
  ended : reply.ended
  rows : ∀ row ∈ store.requests, row ∈ system.store.requests ∨
    (reply = .issued row ∧ row.issue = id)
  paired : ∀ row ∈ store.paired, row ∈ system.store.paired ∨
    ∃ request, reply = .accepted request ∧ row.peer = request.peer
  revoked : ∀ peer, reply = .revoked peer → (∀ row ∈ store.paired, row.peer ≠ peer) ∧
    ∀ other call' request, system.calls other = some call' →
      call'.stage.found = some request → request.peer ≠ peer
  accepted : ∀ request, reply = .accepted request →
    call.stage = .addPairedPeer request ∧ system.clock < request.expiresAt
  allow : ∀ identity, reply = .decided identity .allow →
    ∃ row ∈ system.store.paired, row.peer = identity

namespace Ends

variable {system : System ι} {id : Nat} {call : Call ι} {store : PairingStore} {reply : Reply}

theorem settle (ends : Ends system id call store reply) (controller : ι) :
    system.settle id controller (store, reply) = system.close id store reply := by
  have ended := ends.ended
  cases reply with
  | waits => cases ended
  | _ => rfl

theorem others {other : Nat} {call' : Call ι}
    (running : (system.close id store reply).calls other = some call') :
    other ≠ id ∧ system.calls other = some call' := by
  rcases running_update running with ⟨-, new⟩ | running
  · cases new
  · exact running

theorem unanswered (ends : Ends system id call store reply) (inv : Inv cap system)
    (reply' : Reply) : .answered id reply' ∉ system.log := by
  intro member
  have running := ends.running
  rw [(inv.settled id reply' member).2] at running
  cases running

/-- A request that is issued and gone does not come back. -/
theorem issues (ends : Ends system id call store reply) (inv : Inv cap system)
    {row request : PairingRequestRecord} (member : row ∈ store.requests)
    (issued : .answered request.issue (.issued request) ∈ system.log)
    (none : ∀ row ∈ system.store.requests, row.issue ≠ request.issue) :
    row.issue ≠ request.issue := by
  intro same
  rcases ends.rows row member with kept | ⟨-, new⟩
  · exact none row kept same
  · rw [← same, new] at issued
    exact ends.unanswered inv _ issued

theorem issued (inv : Inv cap system) {other : Nat} {call' : Call ι}
    {request : PairingRequestRecord} (running : system.calls other = some call')
    (found : call'.stage.found = some request) :
    .answered request.issue (.issued request) ∈ system.log := by
  obtain ⟨newer, older, calledAt, split, issued, -⟩ :=
    inv.held other call' request running found
  rw [split]
  exact List.mem_append_right _ (List.mem_cons_of_mem _ issued)

theorem found (ends : Ends system id call store reply) {request : PairingRequestRecord}
    (accepted : reply = .accepted request) : call.stage.found = some request := by
  rw [(ends.accepted request accepted).1]
  rfl

theorem unrevoked {peer : PairingPeerRef}
    (kept : ∀ peer', reply = .revoked peer' → peer' ≠ peer) (other : Nat) : Event.answered id reply ≠ .answered other (.revoked peer) := by
  intro same
  cases same
  exact kept peer rfl rfl

theorem unused (inv : Inv cap system) (other : Nat)
    (above : (system.close id store reply).nextId ≤ other) :
    (system.close id store reply).calls other = none := by
  show Function.update _ _ _ _ = _
  by_cases same : other = id
  · rw [same, Function.update_self]
  · rw [Function.update_of_ne same]
    exact inv.unused other above

theorem settled (ends : Ends system id call store reply) (inv : Inv cap system) (other : Nat)
    (reply' : Reply) (member : .answered other reply' ∈ (system.close id store reply).log) :
    other < system.nextId ∧ (system.close id store reply).calls other = none := by
  show _ ∧ Function.update _ _ _ _ = _
  cases List.mem_cons.mp member with
  | inl here =>
    cases here
    refine ⟨?_, Function.update_self ..⟩
    apply Nat.lt_of_not_le
    intro above
    have running := ends.running
    rw [inv.unused id above] at running
    cases running
  | inr earlier =>
    obtain ⟨below, none⟩ := inv.settled other reply' earlier
    refine ⟨below, ?_⟩
    by_cases same : other = id
    · rw [same, Function.update_self]
    · rw [Function.update_of_ne same]
      exact none

theorem single (ends : Ends system id call store reply) (inv : Inv cap system) (other : Nat)
    (first second : Reply) (member : .answered other first ∈ (system.close id store reply).log)
    (member' : .answered other second ∈ (system.close id store reply).log) :
    first = second := by
  cases List.mem_cons.mp member with
  | inl here =>
    cases here
    cases List.mem_cons.mp member' with
    | inl here' => exact (Event.answered.inj here').2.symm
    | inr earlier => exact absurd earlier (ends.unanswered inv second)
  | inr earlier =>
    cases List.mem_cons.mp member' with
    | inl here' =>
      cases here'
      exact absurd earlier (ends.unanswered inv first)
    | inr earlier' => exact inv.single other first second earlier earlier'

theorem known (ends : Ends system id call store reply) (inv : Inv cap system)
    (row : PairingRequestRecord) (member : row ∈ store.requests) :
    .answered row.issue (.issued row) ∈ (system.close id store reply).log := by
  rcases ends.rows row member with kept | ⟨same, new⟩
  · exact List.mem_cons_of_mem _ (inv.known row kept)
  · rw [new, System.close, ← same]
    exact List.mem_cons_self

theorem held (ends : Ends system id call store reply) (inv : Inv cap system) (other : Nat)
    (call' : Call ι) (request : PairingRequestRecord)
    (running : (system.close id store reply).calls other = some call')
    (found : call'.stage.found = some request) :
    Found (system.close id store reply).log system.clock other request := by
  have before := (others running).2
  refine (inv.held other call' request before found).cons ?_
  exact unrevoked fun peer same owned =>
    (ends.revoked peer same).2 other call' request before found owned.symm

theorem gone (ends : Ends system id call store reply) (inv : Inv cap system) (other : Nat)
    (call' : Call ι) (request : PairingRequestRecord)
    (running : (system.close id store reply).calls other = some call')
    (here : call'.stage = .addPairedPeer request) (row : PairingRequestRecord)
    (member : row ∈ store.requests) : row.issue ≠ request.issue := by
  have before := (others running).2
  exact ends.issues inv member (issued inv before (by rw [here]; rfl))
    (inv.gone other call' request before here)

theorem spent (ends : Ends system id call store reply) (inv : Inv cap system) (other : Nat)
    (request : PairingRequestRecord)
    (member : .answered other (.accepted request) ∈ (system.close id store reply).log) :
    .answered request.issue (.issued request) ∈ (system.close id store reply).log ∧
      (∀ row ∈ store.requests, row.issue ≠ request.issue) ∧
      ∀ third call' request', (system.close id store reply).calls third = some call' →
        call'.stage.found = some request' → request'.issue ≠ request.issue := by
  cases List.mem_cons.mp member with
  | inl here =>
    cases here
    obtain ⟨stage, -⟩ := ends.accepted request rfl
    have found := ends.found rfl
    have issued := issued inv ends.running found
    refine ⟨List.mem_cons_of_mem _ issued, fun row member => ?_, ?_⟩
    · exact ends.issues inv member issued (inv.gone id call request ends.running stage)
    · intro third call' request' running' found' same
      obtain ⟨apart, before⟩ := others running'
      exact apart
        (inv.alone third call' request' id call request before found' ends.running found same)
  | inr earlier =>
    obtain ⟨issued, none, holders⟩ := inv.spent other request earlier
    refine ⟨List.mem_cons_of_mem _ issued, fun row member => ?_, ?_⟩
    · exact ends.issues inv member issued none
    · intro third call' request' running' found
      exact holders third call' request' (others running').2 found

theorem newest (ends : Ends system id call store reply) (inv : Inv cap system)
    {request request' : PairingRequestRecord} {other : Nat} (new : reply = .accepted request)
    (earlier : .answered other (.accepted request') ∈ system.log) :
    request.issue ≠ request'.issue :=
  (inv.spent other request' earlier).2.2 id call request ends.running (ends.found new)

theorem once (ends : Ends system id call store reply) (inv : Inv cap system) (first : Nat)
    (request : PairingRequestRecord) (second : Nat) (request' : PairingRequestRecord)
    (member : .answered first (.accepted request) ∈ (system.close id store reply).log)
    (member' : .answered second (.accepted request') ∈ (system.close id store reply).log)
    (same : request.issue = request'.issue) : first = second := by
  cases List.mem_cons.mp member with
  | inl here =>
    cases here
    cases List.mem_cons.mp member' with
    | inl here' => exact (Event.answered.inj here').1.symm
    | inr earlier => exact absurd same (ends.newest inv rfl earlier)
  | inr earlier =>
    cases List.mem_cons.mp member' with
    | inl here' =>
      cases here'
      exact absurd same.symm (ends.newest inv rfl earlier)
    | inr earlier' => exact inv.once first request second request' earlier earlier' same

theorem approved (ends : Ends system id call store reply) (inv : Inv cap system)
    (row : PairedPeerRecord) (member : row ∈ store.paired) :
    Approved (system.close id store reply).log row.peer := by
  rcases ends.paired row member with kept | ⟨request, rfl, own⟩
  · refine (inv.paired row kept).cons ?_
    exact unrevoked fun peer same owned => (ends.revoked peer same).1 row member owned.symm
  · rw [own]
    exact (inv.held id call request ends.running (ends.found rfl)).accept
      (ends.accepted request rfl).2

theorem allowed (ends : Ends system id call store reply) (inv : Inv cap system)
    (newer older : List Event) (other : Nat) (identity : PairingPeerRef)
    (split : (system.close id store reply).log =
      newer ++ .answered other (.decided identity .allow) :: older) :
    Approved older identity := by
  cases newer with
  | nil =>
    obtain ⟨here, rfl⟩ := List.cons.inj split
    obtain ⟨-, same⟩ := Event.answered.inj here
    obtain ⟨row, member, rfl⟩ := ends.allow identity same
    exact inv.paired row member
  | cons _ newer => exact inv.allowed newer older other identity (List.cons.inj split).2

theorem inv {controller : ι} (ends : Ends system id call store reply) (inv : Inv cap system)
    (fits : Inv.Fits cap system id store) :
    Inv cap (system.settle id controller (store, reply)) := by
  rw [ends.settle]
  exact {
    unused := unused inv
    settled := ends.settled inv
    single := ends.single inv
    known := ends.known inv
    timed := fun other call' now running' =>
      inv.timed other call' now (others running').2
    held := ends.held inv
    asked := fun other call' channelId code request running' =>
      inv.asked other call' channelId code request (others running').2
    gone := ends.gone inv
    alone := fun first call' request second call'' request' running' found running'' =>
      inv.alone first call' request second call'' request' (others running').2 found
        (others running'').2
    spent := ends.spent inv
    once := ends.once inv
    paired := ends.approved inv
    allowed := ends.allowed inv
    capped := fits.capped
    room := fun other call' identity now running' here =>
      fits.room other call' identity now (others running').1 (others running').2 here }

end Ends

namespace Inv

variable {system : System ι} {id : Nat} {call : Call ι} {controller : ι}
  {store : PairingStore}

theorem walks (inv : Inv cap system) (running : system.calls id = some call)
    (rows : store.requests.Sublist system.store.requests)
    (paired : store.paired = system.store.paired) (nothing : stage.found = none)
    (time : ∀ now, stage.time = some now → now ≤ system.clock)
    (room : ∀ identity now, stage = .upsertRequest identity now →
      (store.countOthers identity system.clock : Int) < cap) :
    Inv cap (system.settle id controller (store, .waits stage)) := by
  have none : ∀ request, stage.found ≠ some request := by
    intro request found
    rw [nothing] at found
    cases found
  refine inv.waits running rows paired time (fun request found => absurd found (none request))
    ?_ ?_ (fun request _ _ _ found => absurd found (none request))
    (fun request _ _ found => absurd found (none request)) room
  · rintro channelId code request rfl
    exact absurd rfl (none request)
  · rintro request rfl
    exact absurd rfl (none request)

theorem sameIssue (inv : Inv cap system)
    (issued : .answered first.issue (.issued first) ∈ system.log)
    (issued' : .answered second.issue (.issued second) ∈ system.log)
    (same : first.issue = second.issue) : first = second := by
  rw [same] at issued
  exact Reply.issued.inj (inv.single _ _ _ issued issued')

theorem capped_upsert (inv : Inv cap system)
    (room : system.store.countOthers request.peer system.clock < cap) (positive : 0 ≤ cap)
    (channelId : String) :
    (system.store.upsertRequest request).countPendingRequests channelId system.clock ≤ cap := by
  rw [PairingStore.countPendingRequests, PairingStore.upsertRequest]
  simp only [List.countP_append, List.countP_filter, List.countP_singleton]
  by_cases own : request.peer.channelId = channelId
  · subst own
    have fewer : system.store.requests.countP (fun row =>
        row.pendingOn request.peer.channelId system.clock && !request.conflicts row) ≤
          system.store.countOthers request.peer system.clock := by
      apply List.countP_mono_left
      intro row _ kept
      simp only [PairingRequestRecord.conflicts, Bool.and_eq_true, Bool.not_eq_true',
        Bool.or_eq_false_iff] at kept
      rw [Bool.and_eq_true, bne_iff_ne]
      exact ⟨beq_eq_false_iff_ne.mp kept.2.1, kept.1⟩
    split <;> omega
  · have elsewhere : request.pendingOn channelId system.clock = false := by
      simp [PairingRequestRecord.pendingOn, own]
    have fewer : system.store.requests.countP (fun row =>
        row.pendingOn channelId system.clock && !request.conflicts row) ≤
          system.store.countPendingRequests channelId system.clock := by
      apply List.countP_mono_left
      intro row _ kept
      rw [Bool.and_eq_true] at kept
      exact kept.1
    have before := inv.capped positive channelId
    rw [elsewhere]
    simp only [Bool.false_eq_true, if_false]
    omega

/-- A check's own row is none of the others, and no row of another channel is. -/
theorem countOthers_upsert {identity : PairingPeerRef} {clock : Int}
    (apart : identity = request.peer ∨ identity.channelId ≠ request.peer.channelId) :
    (store.upsertRequest request).countOthers identity clock ≤
      store.countOthers identity clock := by
  have mine : (request.peer != identity && request.pendingOn identity.channelId clock) =
      false := by
    rw [Bool.and_eq_false_iff, PairingRequestRecord.pendingOn, Bool.and_eq_false_iff]
    rcases apart with rfl | elsewhere
    · exact .inl (bne_self_eq_false _)
    · exact .inr (.inl (beq_eq_false_iff_ne.mpr elsewhere.symm))
  rw [PairingStore.countOthers, PairingStore.upsertRequest, List.countP_append,
    List.countP_singleton, if_neg (by rw [mine]; exact Bool.false_ne_true), Nat.add_zero]
  exact List.filter_sublist.countP_le

/-- A call that ends and leaves the store as it is. -/
theorem stays (inv : Inv cap system) (running : system.calls id = some call)
    (ended : reply.ended) (revoked : ∀ peer, reply ≠ .revoked peer)
    (accepted : ∀ request, reply ≠ .accepted request)
    (allow : ∀ identity, reply ≠ .decided identity .allow) :
    Inv cap (system.settle id controller (system.store, reply)) :=
  Ends.inv
    { running, ended
      rows := fun _ => .inl
      paired := fun _ => .inl
      revoked := fun peer same => absurd same (revoked peer)
      accepted := fun request same => absurd same (accepted request)
      allow := fun identity same => absurd same (allow identity) }
    inv (inv.fits id (List.Sublist.refl _))

/-- A request that an approval finds is held by no other. -/
theorem unheld (inv : Inv cap system)
    (orderly : OrderlyTurn system id code (.findRequestByCode channelId code'))
    (found : system.store.findRequestByCode channelId code' = some request)
    (running : system.calls other = some call) (holds : call.stage.found = some holding) :
    request.issue ≠ holding.issue := by
  have member : request ∈ system.store.requests := List.mem_of_find?_eq_some found
  intro equal
  obtain ⟨controller, stage⟩ := call
  cases stage with
  | deleteRequest channelId' code'' held =>
    obtain rfl : held = holding := Option.some.inj holds
    obtain rfl := inv.sameIssue (inv.known request member) (Ends.issued inv running holds) equal
    obtain ⟨rfl, rfl⟩ := inv.asked other _ channelId' code'' request running rfl
    have fits : request.peer.channelId = channelId ∧ request.code = code' := by
      simpa using List.find?_some found
    obtain ⟨rfl, rfl⟩ := fits
    exact orderly other _ request running rfl found
  | addPairedPeer held =>
    obtain rfl : held = holding := Option.some.inj holds
    exact inv.gone other _ held running rfl request member equal
  | _ => cases holds

theorem turn (inv : Inv cap system) {id : Nat} {call : Call ι} {code : String}
    (bounded : ∀ controller, (controllers controller).maxPendingPerChannel ≤ cap)
    (running : system.calls id = some call)
    (asks : ∀ channelId code', call.stage = .findRequestByCode channelId code' →
      ∃ older, system.log = .called id (.approve channelId code') system.clock :: older)
    (orderly : OrderlyTurn system id code call.stage) :
    Inv cap (system.take controllers id call.controller call.stage code) := by
  obtain ⟨controller, stage⟩ := call
  have advances := advance_advances (controllers controller) id system.clock code system.store
    stage
  rw [System.take]
  generalize advance _ _ _ _ _ stage = taken at advances
  obtain ⟨store, reply⟩ := taken
  dsimp only at advances
  have same := List.Sublist.refl system.store.requests
  cases advances with
  | allowed row paired =>
    exact Ends.inv ⟨running, trivial, fun _ => .inl, fun _ => .inl, nofun, nofun,
      fun identity here => ⟨row, paired, (Reply.decided.inj here).1⟩⟩ inv (inv.fits id same)
  | unpaired => exact inv.walks running same rfl rfl nofun nofun
  | pending =>
    exact inv.stays running trivial nofun nofun nofun
  | unasked =>
    exact inv.walks running same rfl rfl (fun now here =>
      Option.some.inj here ▸ Int.le_refl _) nofun
  | pruned =>
    exact inv.walks running List.filter_sublist rfl rfl (fun now' here =>
      inv.timed id _ now' running here) nofun
  | crowded =>
    exact inv.stays running trivial nofun nofun nofun
  | roomy identity now crowd =>
    refine inv.walks running same rfl rfl (fun now' here => inv.timed id _ now' running here) ?_
    rintro _ _ ⟨⟩
    have fewer := system.store.countOthers_le identity (inv.timed id _ now running rfl)
    have bound := bounded controller
    omega
  | issued identity now =>
    refine Ends.inv ⟨running, trivial, ?_, fun _ => .inl, nofun, nofun, nofun⟩ inv ⟨?_, ?_⟩
    · intro row member
      cases List.mem_append.mp member with
      | inl kept => exact .inl (List.mem_filter.mp kept).1
      | inr new =>
        rw [List.mem_singleton.mp new]
        exact .inr ⟨rfl, rfl⟩
    · exact inv.capped_upsert (inv.room id _ identity now running rfl)
    · intro other call' identity' now' apart running' here
      refine Int.lt_of_le_of_lt (Int.ofNat_le.mpr ?_)
        (inv.room other call' identity' now' running' here)
      exact countOthers_upsert (orderly.2 other call' identity' now' apart running' here)
  | unknown =>
    exact inv.stays running trivial nofun nofun nofun
  | found channelId code' request found =>
    have member : request ∈ system.store.requests := List.mem_of_find?_eq_some found
    have issued := inv.known request member
    have fits : request.peer.channelId = channelId ∧ request.code = code' := by
      simpa using List.find?_some found
    obtain ⟨older, split⟩ := asks channelId code' rfl
    refine inv.waits running same rfl nofun ?_ ?_ nofun ?_ ?_ nofun
    · rintro request' ⟨⟩
      refine ⟨[], older, system.clock, ?_, ?_, Int.le_refl _, fun _ => List.not_mem_nil⟩
      · rw [split, fits.1, fits.2]
        rfl
      · rw [split] at issued
        exact (List.mem_cons.mp issued).resolve_left nofun
    · rintro channelId' code'' request' ⟨⟩
      exact fits
    · rintro _ other call' holding ⟨⟩ -
      exact inv.unheld orderly found
    · rintro _ other spent ⟨⟩ accepted
      exact (inv.spent other spent accepted).2.1 request member
  | deleted channelId code' request =>
    have fits := inv.asked id _ channelId code' request running rfl
    have issued : .answered request.issue (.issued request) ∈ system.log :=
      Ends.issued inv running rfl
    refine inv.waits running List.filter_sublist rfl nofun ?_ nofun ?_ ?_ ?_ nofun
    · rintro _ ⟨⟩
      exact inv.held id _ request running rfl
    · rintro _ ⟨⟩ row member equal
      obtain ⟨inside, kept⟩ := List.mem_filter.mp member
      obtain rfl := inv.sameIssue (inv.known row inside) issued equal
      simp [fits.1, fits.2] at kept
    · rintro _ other call' holding ⟨⟩ apart running' found' equal
      exact apart (inv.alone other call' holding id _ request running' found' running rfl
        equal.symm)
    · rintro _ other spent ⟨⟩ accepted
      exact (inv.spent other spent accepted).2.2 id _ request running rfl
  | expired =>
    exact inv.stays running trivial nofun nofun nofun
  | accepted request valid =>
    refine Ends.inv ⟨running, trivial, fun _ => .inl, ?_, nofun, ?_, nofun⟩ inv
      (inv.fits id same)
    · intro row member
      cases List.mem_append.mp member with
      | inl kept => exact .inl (List.mem_filter.mp kept).1
      | inr new => exact .inr ⟨request, rfl, by rw [List.mem_singleton.mp new]⟩
    · rintro _ ⟨⟩
      exact ⟨rfl, valid⟩
  | revoked =>
    refine Ends.inv ⟨running, trivial, fun _ => .inl,
      fun row member => .inl (List.mem_filter.mp member).1, ?_, nofun, nofun⟩ inv
      (inv.fits id same)
    rintro _ ⟨⟩
    exact ⟨fun row member => bne_iff_ne.mp (List.mem_filter.mp member).2, orderly⟩

end Inv

def Begun (system : System ι) : Prop :=
  ∀ id call channelId code, system.calls id = some call →
    call.stage ≠ .findRequestByCode channelId code

variable {system : System ι}

theorem begun_take {controller : ι} {stage : Stage} {code : String}
    (begun : ∀ other call channelId code', other ≠ id → system.calls other = some call →
      call.stage ≠ .findRequestByCode channelId code') :
    Begun (system.take controllers id controller stage code) := by
  have advances := advance_advances (controllers controller) id system.clock code system.store
    stage
  rw [System.take]
  generalize advance _ _ _ _ _ stage = taken at advances
  obtain ⟨store, reply⟩ := taken
  dsimp only at advances
  intro other call channelId code' running
  cases advances <;> rcases running_update running with ⟨-, new⟩ | ⟨apart, before⟩ <;>
    first
      | exact begun other call channelId code' apart before
      | (cases new; done)
      | (cases new; exact nofun)

variable {action : Action ι}

theorem inv_step (inv : Inv cap system) (begun : Begun system)
    (bounded : ∀ controller, (controllers controller).maxPendingPerChannel ≤ cap)
    (orderly : Orderly system action) :
    Inv cap (system.step controllers action) ∧ Begun (system.step controllers action) := by
  cases action with
  | tick clock => exact ⟨inv.tick clock, begun⟩
  | move id =>
    rw [System.step]
    cases running : system.calls id with
    | none => exact ⟨inv, begun⟩
    | some call =>
      refine ⟨inv.turn bounded running ?_ (orderly call running), begun_take ?_⟩
      · intro channelId code' stage
        exact absurd stage (begun id call channelId code' running)
      · intro other call' channelId code' _ running'
        exact begun other call' channelId code' running'
  | call controller request =>
    have others : ∀ other call, other ≠ system.nextId →
        (system.register controller request).calls other = some call →
          system.calls other = some call := by
      intro other call apart running
      rcases running_update running with ⟨same, -⟩ | ⟨-, before⟩
      · exact absurd same apart
      · exact before
    have running : (system.register controller request).calls system.nextId =
        some ⟨controller, request.stage⟩ := Function.update_self ..
    rw [step_call]
    constructor
    · refine (inv.register controller request).turn bounded running ?_ ?_
      · intro channelId code' stage
        cases request with
        | approve =>
          cases stage
          exact ⟨system.log, rfl⟩
        | _ => cases stage
      · cases request with
        | check => trivial
        | approve =>
          intro other call request running' stage
          have before := others other call ?_ running'
          · exact orderly other call request before stage
          · rintro rfl
            rw [running] at running'
            cases running'
            cases stage
        | revoke =>
          intro other call request running' found
          have before := others other call ?_ running'
          · exact orderly other call request before found
          · rintro rfl
            rw [running] at running'
            cases running'
            cases found
    · apply begun_take
      intro other call channelId code' apart running'
      exact begun other call channelId code' (others other call apart running')

theorem inv_play (inv : Inv cap system) (begun : Begun system)
    (bounded : ∀ controller, (controllers controller).maxPendingPerChannel ≤ cap)
    (orderly : OrderlyRun controllers system actions) :
    Inv cap (system.play controllers actions) := by
  induction actions generalizing system with
  | nil => exact inv
  | cons action rest ih =>
    obtain ⟨inv', begun'⟩ := inv_step inv begun bounded orderly.1
    exact ih inv' begun' orderly.2

theorem orderly_split (orderly : OrderlyRun controllers system (before ++ action :: after)) :
    OrderlyRun controllers system before ∧
      Orderly (system.play controllers before) action := by
  induction before generalizing system with
  | nil => exact ⟨trivial, orderly.1⟩
  | cons first rest ih => exact ⟨⟨orderly.1, (ih orderly.2).1⟩, (ih orderly.2).2⟩

structure Admits (cap : Nat) (system : System ι) : Prop where
  approved : ∀ newer older id identity,
    system.log = newer ++ .answered id (.decided identity .allow) :: older →
      Approved older identity
  once : ∀ id request id' request', .answered id (.accepted request) ∈ system.log →
    .answered id' (.accepted request') ∈ system.log → request.issue = request'.issue →
      id = id' ∧ request.peer = request'.peer
  capped : ∀ channelId, system.store.countPendingRequests channelId system.clock ≤ cap

def System.checking (system : System ι) : Action ι → Option PairingPeerRef
  | .tick _ => none
  | .call _ request => request.stage.checks
  | .move id _ => (system.calls id).bind fun call => call.stage.checks

/-- A check takes no unexpired request from another peer. -/
def KeepsOthers (controllers : ι → PairingPolicyOptions) (system : System ι)
    (action : Action ι) : Prop :=
  ∀ identity, system.checking action = some identity →
    ∀ row ∈ system.store.requests, row.peer ≠ identity → system.clock < row.expiresAt →
      row ∈ (system.step controllers action).store.requests

theorem keepsOthers_of_orderly (inv : Inv cap system)
    (orderly : Orderly system action) :
    KeepsOthers controllers system action := by
  intro identity checking row member apart unexpired
  cases action with
  | tick => cases checking
  | call _ request =>
    cases request with
    | check =>
      rw [System.step, System.take, System.settle, Request.stage, advance]
      dsimp only
      split <;> exact member
    | _ => cases checking
  | move id code =>
    rw [System.checking] at checking
    rw [System.step]
    cases running : system.calls id with
    | none => exact member
    | some call =>
      rw [running] at checking
      obtain ⟨controller, stage⟩ := call
      have turn := orderly ⟨controller, stage⟩ running
      have timed := fun now => inv.timed id ⟨controller, stage⟩ now running
      have advances := advance_advances (controllers controller) id system.clock code
        system.store stage
      show row ∈ (System.settle system id controller _).store.requests
      generalize advance _ _ _ _ _ stage = taken at advances
      obtain ⟨store, reply⟩ := taken
      dsimp only at advances
      cases advances with
      | pruned _ now =>
        refine List.mem_filter.mpr ⟨member, ?_⟩
        have early := timed now rfl
        rw [decide_eq_true_eq]
        omega
      | issued identity' =>
        obtain rfl : identity' = identity := Option.some.inj checking
        refine List.mem_append_left _ (List.mem_filter.mpr ⟨member, ?_⟩)
        rw [Bool.not_eq_true', PairingRequestRecord.conflicts, Bool.or_eq_false_iff]
        refine ⟨beq_eq_false_iff_ne.mpr apart, ?_⟩
        rw [Bool.and_eq_false_iff, beq_eq_false_iff_ne, beq_eq_false_iff_ne]
        by_contra same
        obtain ⟨channel, code'⟩ := not_or.mp same
        have expired := turn.1 row member apart (not_not.mp channel) (not_not.mp code')
        omega
      | found | deleted | expired | accepted | revoked | unknown => cases checking
      | _ => exact member

/-- In orderly runs the peers that get in are those an operator has let in. -/
theorem orderly_pairing_admits_approved (controllers : ι → PairingPolicyOptions) (cap : Nat)
    (bounded : ∀ controller, (controllers controller).maxPendingPerChannel ≤ cap) (clock : Int)
    (actions : List (Action ι))
    (orderly : OrderlyRun controllers (System.start clock) actions) :
    Admits cap ((System.start clock).play controllers actions) ∧
      ∀ before action after, actions = before ++ action :: after →
        KeepsOthers controllers ((System.start clock).play controllers before) action := by
  have begun : Begun (System.start clock : System ι) := fun _ _ _ _ running => nomatch running
  constructor
  · have inv := inv_play (inv_start clock) begun bounded orderly
    refine ⟨inv.allowed, ?_, fun channelId => ?_⟩
    · intro id request id' request' accepted accepted' same
      refine ⟨inv.once id request id' request' accepted accepted' same, ?_⟩
      rw [inv.sameIssue (inv.spent id request accepted).1 (inv.spent id' request' accepted').1
        same]
    · exact Int.ofNat_le.mp (inv.capped (Int.natCast_nonneg cap) channelId)
  · rintro before action after rfl
    obtain ⟨earlier, now⟩ := orderly_split orderly
    exact keepsOthers_of_orderly (inv_play (inv_start clock) begun bounded earlier) now

section Example

private def ana : PairingPeerRef := ⟨"telegram", "bot", "ana"⟩

private def ben : PairingPeerRef := ⟨"telegram", "bot", "ben"⟩

private def anyController : Unit → PairingPolicyOptions := fun _ => {}

/-- A check of a new peer up to the code it is issued. -/
private def challenge (id : Nat) (identity : PairingPeerRef) (code : String) :
    List (Action Unit) :=
  [.call () (.check identity), .move id code, .move id code, .move id code, .move id code]

private def pairing : List (Action Unit) :=
  challenge 0 ana "CODE1" ++
    [.call () (.approve "telegram" "CODE1"), .move 1 "", .move 1 "", .call () (.check ana)]

/-- While the first check goes on no other call does. -/
private theorem idle (moves : Nat) (apart : other ≠ 0) :
    ((System.start 0).play anyController ((challenge 0 ana "CODE1").take moves)).calls other =
      none := by
  have still {system : System Unit} (quiet : system.calls other = none)
      (taken : PairingStore × Reply) : (system.settle 0 () taken).calls other = none := by
    obtain ⟨store, reply⟩ := taken
    cases reply <;> exact (Function.update_of_ne apart ..).trans quiet
  have moved (actions : List (Action Unit)) (own : ∀ action ∈ actions, action = .move 0 "CODE1")
      (system : System Unit) (quiet : system.calls other = none) :
      (system.play anyController actions).calls other = none := by
    induction actions generalizing system with
    | nil => exact quiet
    | cons action rest ih =>
      refine ih (fun action there => own action (List.mem_cons_of_mem _ there)) _ ?_
      rw [own action List.mem_cons_self, System.step]
      cases system.calls 0 with
      | none => exact quiet
      | some call => exact still quiet _
  cases moves with
  | zero => rfl
  | succ moves =>
    refine moved ((challenge 0 ana "CODE1").tail.take moves) (fun action there => ?_) _ ?_
    · exact List.eq_of_mem_replicate (List.mem_of_mem_take there : action ∈ List.replicate 4 _)
    · rw [System.step, System.take]
      exact still rfl _

private theorem pairing_orderly : OrderlyRun anyController (System.start 0) pairing := by
  refine ⟨trivial, ?_, ?_, ?_, ?_, ?_, ?_, ?_, trivial, trivial⟩
  · rintro call ⟨⟩
    trivial
  · rintro call ⟨⟩
    trivial
  · rintro call ⟨⟩
    trivial
  · rintro call ⟨⟩
    refine ⟨nofun, fun other call identity' now apart running => ?_⟩
    exact nomatch (idle 4 apart).symm.trans running
  · intro other call request running
    rcases eq_or_ne other 0 with rfl | apart
    · cases running
    · exact nomatch (idle 5 apart).symm.trans running
  · rintro call ⟨⟩
    trivial
  · rintro call ⟨⟩
    trivial

theorem approved_peer_gets_in : Approved
      [.called 2 (.check ana) 0, .answered 1 (.accepted ⟨ana, "CODE1", 0, 3600000, 0⟩),
        .called 1 (.approve "telegram" "CODE1") 0,
        .answered 0 (.issued ⟨ana, "CODE1", 0, 3600000, 0⟩), .called 0 (.check ana) 0] ana :=
  (orderly_pairing_admits_approved anyController 3 (fun _ => Int.le_refl 3) 0 pairing
    pairing_orderly).1.approved [] _ 2 ana rfl

private def doubled : List (Action Unit) :=
  challenge 0 ana "CODE1" ++
    [.call () (.approve "telegram" "CODE1"), .call () (.approve "telegram" "CODE1"),
      .move 1 "", .move 2 "", .move 1 "", .move 2 ""]

private def overtaken : List (Action Unit) :=
  challenge 0 ana "CODE1" ++
    [.call () (.approve "telegram" "CODE1"), .call () (.revoke ana), .move 1 "", .move 1 ""]

/-- Two approvals accept one code, a revocation in the midst of an approval is lost, and a
code that is drawn twice takes another peer's request away. -/
theorem pairing_overlaps :
    ((System.start 0).play anyController doubled).log.take 2 =
        [.answered 2 (.accepted ⟨ana, "CODE1", 0, 3600000, 0⟩),
          .answered 1 (.accepted ⟨ana, "CODE1", 0, 3600000, 0⟩)] ∧
      ((System.start 0).play anyController overtaken).log.take 4 =
        [.answered 1 (.accepted ⟨ana, "CODE1", 0, 3600000, 0⟩), .answered 2 (.revoked ana),
          .called 2 (.revoke ana) 0, .called 1 (.approve "telegram" "CODE1") 0] ∧
      ((System.start 0).play anyController overtaken).store.isPaired ana = true ∧
      ((System.start 0).play anyController (challenge 0 ana "CODE1")).store.requests =
        [⟨ana, "CODE1", 0, 3600000, 0⟩] ∧ ((System.start 0).play anyController
        (challenge 0 ana "CODE1" ++ challenge 1 ben "CODE1")).store.requests =
          [⟨ben, "CODE1", 0, 3600000, 1⟩] :=
  ⟨rfl, rfl, by decide, by decide, by decide⟩

end Example

end Graphorin.Channels
