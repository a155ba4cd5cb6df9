import Graphorin.Lib.OrderedMap

namespace Graphorin.Server

open Graphorin.Lib

/-! The `Idempotency-Key` middleware: a durable store, a read cache over it, and the
keys whose execution is in flight. -/

structure IdempotencyRecord (ρ : Type) where
  key : String
  requestHash : String
  statusCode : Nat
  response : ρ
  responseHeaders : Option (List (String × String))
  scope : Option String
  createdAt : Int
  expiresAt : Int
deriving DecidableEq

structure CacheEntry (ρ : Type) where
  record : IdempotencyRecord ρ
  cachedAt : Int
deriving DecidableEq

structure SimpleLru (ν : Type) where
  capacity : Nat
  map : OrderedMap String ν

namespace SimpleLru

variable {ν : Type}

def create (capacity : Nat) : SimpleLru ν := ⟨max 1 capacity, .empty⟩

/-- What is read becomes the newest. -/
def get (key : String) (lru : SimpleLru ν) : Option ν × SimpleLru ν :=
  match lru.map.get key with
  | none => (none, lru)
  | some value =>
    (some value, { lru with map := (lru.map.delete key).set key value })

def set (key : String) (value : ν) (lru : SimpleLru ν) : SimpleLru ν :=
  let map := (lru.map.delete key).set key value
  { lru with map := map.deleteAll (map.keys.take (map.keys.length - lru.capacity)) }

def delete (key : String) (lru : SimpleLru ν) : SimpleLru ν :=
  { lru with map := lru.map.delete key }

theorem get_fst (key : String) (lru : SimpleLru ν) :
    (lru.get key).1 = lru.map.get key := by
  unfold get
  cases lru.map.get key with
  | none => rfl
  | some => rfl

theorem get_snd (key other : String) (lru : SimpleLru ν) :
    (lru.get key).2.map.get other = lru.map.get other := by
  unfold get
  cases found : lru.map.get key with
  | none => rfl
  | some =>
    simp only [OrderedMap.get_set, OrderedMap.get_delete]
    by_cases same : other = key
    · rw [if_pos same, same, found]
    · rw [if_neg same, if_neg same]

variable {key other : String} {value : ν} {lru : SimpleLru ν}

theorem get_of_set {value' : ν} (found : (lru.set key value).map.get other = some value') :
    (other = key ∧ value' = value) ∨ lru.map.get other = some value' := by
  simp only [set, OrderedMap.get_deleteAll] at found
  split at found
  · cases found
  · rw [OrderedMap.get_set] at found
    split at found
    · rename_i same
      exact .inl ⟨same, (Option.some.inj found).symm⟩
    · rw [OrderedMap.get_delete] at found
      split at found
      · cases found
      · exact .inr found

theorem get_of_delete (found : (lru.delete key).map.get other = some value) :
    lru.map.get other = some value := by
  simp only [delete, OrderedMap.get_delete] at found
  split at found
  · cases found
  · exact found

end SimpleLru

inductive RequireKey
  | off
  | warn
  | enforce
deriving DecidableEq

structure IdempotencyConfig where
  enabled : Bool
  requireKey : RequireKey
  checkBodyFingerprint : Bool
  ttlSeconds : Nat
  lruCacheSize : Nat
  excludeResponseCachePaths : List String

/-- A request as the middleware sees it.  The key is the trimmed header; there is no
fingerprint where the body is present and not JSON. -/
structure HttpRequest where
  method : String
  path : String
  idempotencyKey : Option String
  principal : String
  fingerprint : Option String

inductive IdempotencyRefusal
  | keyMissing
  | keyMalformed
  | invalidJson
  | otherPrincipal
  | otherBody
  | inFlight
deriving DecidableEq

def IdempotencyRefusal.status : IdempotencyRefusal → Nat
  | .keyMissing => 400
  | .keyMalformed => 400
  | .invalidJson => 400
  | .otherPrincipal => 409
  | .otherBody => 409
  | .inFlight => 409

def IdempotencyRefusal.error : IdempotencyRefusal → String
  | .keyMissing => "idempotency-key-required"
  | .keyMalformed => "idempotency-key-required"
  | .invalidJson => "invalid-json"
  | .otherPrincipal => "idempotency-conflict"
  | .otherBody => "idempotency-conflict"
  | .inFlight => "idempotency-in-flight"

def IdempotencyRefusal.message (key : String) : IdempotencyRefusal → String
  | .keyMissing => "Idempotency-Key header is required for this endpoint."
  | .keyMalformed => "Idempotency-Key must be 8-255 chars of [A-Za-z0-9_:-]."
  | .invalidJson => "Request body is not valid JSON."
  | .otherPrincipal =>
    "Idempotency-Key '" ++ key ++ "' is bound to a different principal."
  | .otherBody =>
    "Idempotency-Key '" ++ key ++
      "' was previously used with a different request body."
  | .inFlight =>
    "A request with Idempotency-Key '" ++ key ++ "' is currently being processed."

/-- How a request ends: `passed` went by the middleware, `threw` with the store. -/
inductive IdempotencyAnswer (ρ : Type)
  | passed (status : Option String)
  | refused (refusal : IdempotencyRefusal)
  | replayed (record : IdempotencyRecord ρ)
  | executed
  | threw
deriving DecidableEq

/-- Where a keyed request is.  The store takes an operation at some point between
`getting`, `deleting`, `storing` and what follows each. -/
inductive IdempotencyPhase (ρ : Type)
  | arrived
  | getting
  | got (found : Option (IdempotencyRecord ρ))
  | deleting (record : IdempotencyRecord ρ)
  | deleted
  | executing
  | storing (record : IdempotencyRecord ρ)
  | stored (record : IdempotencyRecord ρ)
  | unstored
  | answered (answer : IdempotencyAnswer ρ)
deriving DecidableEq

structure KeyedRequest (ρ : Type) where
  key : String
  principal : String
  fingerprint : Option String
  phase : IdempotencyPhase ρ
deriving DecidableEq

/-- What the handler answered; the body is `captureJsonResponse`. -/
structure HandlerResponse (ρ : Type) where
  status : Nat
  body : Option ρ
  headers : Option (List (String × String))

def safeMethods : List String := ["GET", "HEAD", "OPTIONS", "TRACE"]

/-- `NON_CACHEABLE_STATUS`. -/
def nonCacheableStatus : List Nat := [408, 425, 429, 500, 502, 503, 504]

def upperCase (text : String) : String :=
  String.ofList (text.toList.map Char.toUpper)

/-- `KEY_RE`. -/
def isKey (key : String) : Bool :=
  8 ≤ key.toList.length && key.toList.length ≤ 255 &&
    key.toList.all fun character =>
      character.isAlphanum || character = '_' || character = '-' || character = ':'

def entryOf {ρ : Type} (config : IdempotencyConfig) (request : HttpRequest) :
    Except (IdempotencyAnswer ρ) String :=
  if ¬ config.enabled then .error (.passed none)
  else if upperCase request.method ∈ safeMethods then .error (.passed none)
  else if request.path ∈ config.excludeResponseCachePaths then .error (.passed none)
  else
    match request.idempotencyKey.filter (· ≠ "") with
    | none =>
      match config.requireKey with
      | .enforce => .error (.refused .keyMissing)
      | .warn => .error (.passed (some "header-missing"))
      | .off => .error (.passed none)
    | some key => if isKey key then .ok key else .error (.refused .keyMalformed)

inductive IdempotencyDecision (ρ : Type)
  | refuse (refusal : IdempotencyRefusal)
  | replay (record : IdempotencyRecord ρ)
  | expired (record : IdempotencyRecord ρ)

def decideRecord {ρ : Type} (config : IdempotencyConfig) (now : Int)
    (request : KeyedRequest ρ) (record : IdempotencyRecord ρ) :
    IdempotencyDecision ρ :=
  if record.scope ≠ none ∧ record.scope ≠ some request.principal then
    .refuse .otherPrincipal
  else if config.checkBodyFingerprint ∧ some record.requestHash ≠ request.fingerprint then
    .refuse .otherBody
  else if now < record.expiresAt then .replay record
  else .expired record

/-- `kept` is every record that was ever stored. -/
structure IdempotencyWorld (ρ : Type) where
  clock : Int
  store : OrderedMap String (IdempotencyRecord ρ)
  lru : SimpleLru (CacheEntry ρ)
  inFlight : List String
  requests : List (KeyedRequest ρ)
  kept : List (IdempotencyRecord ρ)

namespace IdempotencyWorld

variable {ρ : Type} (config : IdempotencyConfig)

def withPhase (id : Nat) (phase : IdempotencyPhase ρ) (world : IdempotencyWorld ρ) :
    IdempotencyWorld ρ :=
  { world with
    requests := world.requests.modify id fun request => { request with phase := phase } }

def cache (key : String) (record : IdempotencyRecord ρ) (world : IdempotencyWorld ρ) :
    IdempotencyWorld ρ :=
  { world with lru := world.lru.set key ⟨record, world.clock⟩ }

def young (clock : Int) (entry : CacheEntry ρ) : Bool :=
  clock - entry.cachedAt < 5 * 60 * 1000

def enter (id : Nat) (request : KeyedRequest ρ) (world : IdempotencyWorld ρ) :
    IdempotencyWorld ρ :=
  if request.key ∈ world.inFlight then
    world.withPhase id (.answered (.refused .inFlight))
  else
    { world with inFlight := request.key :: world.inFlight }.withPhase id .executing

def judge (id : Nat) (request : KeyedRequest ρ) (record : IdempotencyRecord ρ)
    (world : IdempotencyWorld ρ) : IdempotencyWorld ρ :=
  match decideRecord config world.clock request record with
  | .refuse refusal => world.withPhase id (.answered (.refused refusal))
  | .replay record => world.withPhase id (.answered (.replayed record))
  | .expired record =>
    { world with lru := world.lru.delete request.key }.withPhase id (.deleting record)

def lookUp (id : Nat) (request : KeyedRequest ρ) (world : IdempotencyWorld ρ) :
    IdempotencyWorld ρ :=
  if request.fingerprint = none then
    world.withPhase id (.answered (.refused .invalidJson))
  else
    let (cached, lru) := world.lru.get request.key
    let world := { world with lru := lru }
    match cached.filter (young world.clock) with
    | some entry => world.judge config id request entry.record
    | none => world.withPhase id .getting

/-- The `finally`. -/
def leave (id : Nat) (request : KeyedRequest ρ) (world : IdempotencyWorld ρ) :
    IdempotencyWorld ρ :=
  { world with inFlight := world.inFlight.filter (· ≠ request.key) }.withPhase id
    (.answered .executed)

def serve (id : Nat) (request : KeyedRequest ρ) (fails : Bool)
    (world : IdempotencyWorld ρ) : IdempotencyWorld ρ :=
  match request.phase with
  | .getting =>
    if fails then world.withPhase id (.answered .threw)
    else world.withPhase id (.got (world.store.get request.key))
  | .deleting _ =>
    if fails then world.withPhase id (.answered .threw)
    else { world with store := world.store.delete request.key }.withPhase id .deleted
  | .storing record =>
    if fails then world.withPhase id .unstored
    else
      { world with
        store := world.store.set record.key record
        kept := world.kept ++ [record] }.withPhase id (.stored record)
  | _ => world

def resume (id : Nat) (request : KeyedRequest ρ) (world : IdempotencyWorld ρ) :
    IdempotencyWorld ρ :=
  match request.phase with
  | .got none => world.enter id request
  | .got (some record) =>
    (world.cache request.key record).judge config id request record
  | .deleted => world.enter id request
  | .stored record => (world.cache request.key record).leave id request
  | .unstored => world.leave id request
  | _ => world

def respond (id : Nat) (request : KeyedRequest ρ)
    (response : Option (HandlerResponse ρ)) (world : IdempotencyWorld ρ) :
    IdempotencyWorld ρ :=
  match request.phase, response with
  | .executing, none => world.leave id request
  | .executing, some response =>
    if response.status ∈ nonCacheableStatus then world.leave id request
    else
      match response.body with
      | none => world.leave id request
      | some body =>
        world.withPhase id (.storing
          ⟨request.key, request.fingerprint.getD "", response.status, body,
            response.headers, some request.principal, world.clock,
            world.clock + config.ttlSeconds * 1000⟩)
  | _, _ => world

def admitted (request : HttpRequest) : KeyedRequest ρ :=
  match entryOf config request with
  | .error answer => ⟨"", request.principal, request.fingerprint, .answered answer⟩
  | .ok key => ⟨key, request.principal, request.fingerprint, .arrived⟩

def arrive (request : HttpRequest) (world : IdempotencyWorld ρ) :
    IdempotencyWorld ρ :=
  { world with requests := world.requests ++ [admitted config request] }

def sweep (world : IdempotencyWorld ρ) : IdempotencyWorld ρ :=
  let old := world.store.entries.filter fun entry => entry.2.expiresAt < world.clock
  { world with store := world.store.deleteAll (old.map Prod.fst) }

inductive Move (ρ : Type)
  | arrived (request : HttpRequest)
  | read (id : Nat)
  | served (id : Nat) (fails : Bool)
  | resumed (id : Nat)
  | responded (id : Nat) (response : Option (HandlerResponse ρ))
  | swept
  | elapsed (ms : Nat)

def step (world : IdempotencyWorld ρ) : Move ρ → IdempotencyWorld ρ
  | .arrived request => world.arrive config request
  | .read id =>
    match world.requests[id]? with
    | some request =>
      match request.phase with
      | .arrived => world.lookUp config id request
      | _ => world
    | none => world
  | .served id fails =>
    match world.requests[id]? with
    | some request => world.serve id request fails
    | none => world
  | .resumed id =>
    match world.requests[id]? with
    | some request => world.resume config id request
    | none => world
  | .responded id response =>
    match world.requests[id]? with
    | some request => world.respond config id request response
    | none => world
  | .swept => world.sweep
  | .elapsed ms => { world with clock := world.clock + ms }

/-- A server that starts on this store. -/
def start (clock : Int) (store : OrderedMap String (IdempotencyRecord ρ)) :
    IdempotencyWorld ρ :=
  ⟨clock, store, .create config.lruCacheSize, [], [], store.entries.map Prod.snd⟩

end IdempotencyWorld

end Graphorin.Server
