import Graphorin.Auth.Types

namespace Graphorin.Auth

open Graphorin.Js
open Graphorin.Lib (Program OrderedMap)

/-! `TokenVerifier`.  What runs between two awaits is one step. -/

namespace LruCache

variable {κ ν : Type} [DecidableEq κ]

def get (cache : LruCache κ ν) (key : κ) (now : Nat) : Option ν × LruCache κ ν :=
  match cache.map.get key with
  | none => (none, cache)
  | some entry =>
    match entry.expiresAt with
    | some expiresAt =>
      if expiresAt ≤ now then (none, { cache with map := cache.map.delete key })
      else
        (some entry.value,
          { cache with map := (cache.map.delete key).set key entry })
    | none =>
      (some entry.value,
        { cache with map := (cache.map.delete key).set key entry })

/-- `ttlMs` is absent when it is not a number. -/
def set (cache : LruCache κ ν) (key : κ) (value : ν) (ttlMs : Option Int)
    (now : Nat) : LruCache κ ν :=
  let entry : CacheEntry ν := ⟨value, ttlMs.map fun ttl => now + ttl⟩
  let stored := (cache.map.delete key).set key entry
  { cache with map := stored.deleteAll (stored.keys.take
      (stored.keys.length - cache.max)) }

def delete (cache : LruCache κ ν) (key : κ) : LruCache κ ν :=
  { cache with map := cache.map.delete key }

end LruCache

/-- A touch-reset window: only a full window of silence resets the count. -/
def RateWindow.record (window : RateWindow) (now windowMs : Nat) : RateWindow where
  count := if window.lastTouch + windowMs < now then 1 else window.count + 1
  lastTouch := now

def hexText (text : String) : Bool :=
  text.toList.length = 64 && text.toList.all fun char =>
    digit char || ('a' ≤ char ∧ char ≤ 'f')

def timingSafeEqualHex (a b : String) : Bool :=
  a.toList.length = b.toList.length && !(Bytes.fromHex a).isEmpty &&
    Bytes.fromHex a = Bytes.fromHex b

def recordToVerified (record : AuthTokenRecord) (env : String)
    (expiresAt : Option (Option Int)) : VerifiedToken where
  tokenId := record.id
  label := record.label
  scopes := record.scopes.filterMap tryParseScope
  env := env
  expiresAt := expiresAt

/-- `none` when the expiry is not a number. -/
def computeCacheTtlMs (now : Nat) (expiresAtMs : Option (Option Int))
    (cacheTtlMaxMs : Nat) : Option Int :=
  match expiresAtMs with
  | none => some cacheTtlMaxMs
  | some none => none
  | some (some expiresAt) => some (min (cacheTtlMaxMs : Int) (max 0 (expiresAt - now)))

namespace TokenVerifier

def ipWindow (verifier : TokenVerifier) (options : VerifierOptions) (ip : String)
    (now : Nat) : RateWindow :=
  ((verifier.ipFailures.get ip).getD {}).record now options.perIpWindowMs

def overflow {ν : Type} (map : OrderedMap String ν) (cap : Nat) : List String :=
  map.keys.take (map.keys.length - cap)

def sweepLockouts (verifier : TokenVerifier) (options : VerifierOptions)
    (now : Nat) : OrderedMap String Nat :=
  if options.maxTrackedIps < verifier.ipLockouts.keys.length then
    verifier.ipLockouts.deleteAll
      ((verifier.ipLockouts.entries.filter fun entry => entry.2 ≤ now).map Prod.fst)
  else verifier.ipLockouts

def boundIpMaps (verifier : TokenVerifier) (options : VerifierOptions)
    (now : Nat) : TokenVerifier :=
  let lockouts := verifier.sweepLockouts options now
  { verifier with
    ipLockouts := lockouts.deleteAll (overflow lockouts options.maxTrackedIps)
    ipFailures := verifier.ipFailures.deleteAll
      (overflow verifier.ipFailures options.maxTrackedIps) }

def evictedIps (verifier : TokenVerifier) (options : VerifierOptions)
    (now : Nat) : List String :=
  overflow (verifier.sweepLockouts options now) options.maxTrackedIps ++
    overflow verifier.ipFailures options.maxTrackedIps

/-- The counting half of `#noteIpFailure`, before the maps are bounded. -/
def countIpFailure (verifier : TokenVerifier) (options : VerifierOptions)
    (ip : String) (now : Nat) : TokenVerifier :=
  let window := verifier.ipWindow options ip now
  if options.perIpFailureThreshold ≤ window.count then
    { verifier with
      ipLockouts := verifier.ipLockouts.set ip (now + options.perIpLockoutMs)
      ipFailures := verifier.ipFailures.delete ip }
  else { verifier with ipFailures := verifier.ipFailures.set ip window }

def noteIpFailure (verifier : TokenVerifier) (options : VerifierOptions)
    (ip : Option String) (now : Nat) : TokenVerifier :=
  match ip with
  | none => verifier
  | some ip => (verifier.countIpFailure options ip now).boundIpMaps options now

def noteTokenFailure (verifier : TokenVerifier) (options : VerifierOptions)
    (tokenId : String) (now : Nat) : TokenVerifier :=
  let window := ((verifier.tokenFailures.get tokenId).getD {}).record now
    options.perTokenWindowMs
  if options.perTokenFailureThreshold ≤ window.count then
    { verifier with
      tokenLockouts :=
        if tokenId ∈ verifier.tokenLockouts then verifier.tokenLockouts
        else verifier.tokenLockouts ++ [tokenId]
      tokenFailures := verifier.tokenFailures.delete tokenId }
  else
    { verifier with tokenFailures := verifier.tokenFailures.set tokenId window }

end TokenVerifier

namespace World

variable (options : VerifierOptions)

/-- The `finally` of `verify`. -/
def leave (world : World) : World :=
  { world with
    verifier := { world.verifier with inFlight := world.verifier.inFlight - 1 } }

def noted (world : World) (events : List Event) : World :=
  { world with log := world.log ++ events }

def lockedBy (world : World) (ip : Option String) (now : Nat) : Option Nat :=
  ip.bind fun ip =>
    if options.perIpFailureThreshold ≤
        (world.verifier.ipWindow options ip now).count then
      some (now + options.perIpLockoutMs)
    else none

def evictedBy (world : World) (ip : Option String) (now : Nat) : List Event :=
  match ip with
  | none => []
  | some ip =>
    ((world.verifier.countIpFailure options ip now).evictedIps options now).map
      .evicted

def refuseIp (world : World) (ip : Option String) (now : Nat)
    (reason : VerifyFailureReason) : VerifyResult × World :=
  (.refused reason none,
    noted
      { world with verifier := world.verifier.noteIpFailure options ip now }
      (.answered ip now (.refused reason none) (world.lockedBy options ip now) ::
        world.evictedBy options ip now))

/-- `parseToken`, once the address is not locked out. -/
def parseAndProceed (rawToken : String) (ip : Option String) (now : Nat)
    (world : World) : BeginVerify × World :=
  match parseToken rawToken options.parseOpts with
  | .error _ =>
    let answered := world.refuseIp options ip now .malformed
    (.answered answered.1, answered.2)
  | .ok parsed =>
    (.proceeding ⟨ip, now, parsed.env⟩,
      { world with verifier :=
        { world.verifier with inFlight := world.verifier.inFlight + 1 } })

def liftLockout (world : World) (ip : String) : World :=
  { world with verifier :=
    { world.verifier with ipLockouts := world.verifier.ipLockouts.delete ip } }

def beginVerify (rawToken : String) (ip : Option String) (world : World) :
    BeginVerify × World :=
  if options.maxConcurrentVerify ≤ world.verifier.inFlight then
    (.overloaded world.verifier.inFlight options.maxConcurrentVerify, world)
  else
    let now := world.clock
    let world := world.noted [.entered ip now]
    match ip with
    | none => world.parseAndProceed options rawToken none now
    | some ip =>
      match world.verifier.ipLockouts.get ip with
      | none => world.parseAndProceed options rawToken (some ip) now
      | some lockedUntil =>
        if now < lockedUntil then
          let result := .refused .ipLockedOut (some (lockedUntil - now))
          (.answered result, world.noted [.answered (some ip) now result none])
        else
          (world.liftLockout ip).parseAndProceed options rawToken (some ip) now

/-- After the HMAC: the warm cache; `none` sends the call on to the store. -/
def consultCache (hashHex : String) (call : VerifyCall) (world : World) :
    Option VerifyResult × World :=
  let (cached, cache) := world.verifier.cache.get hashHex call.now
  let world := { world with verifier := { world.verifier with cache := cache } }
  match cached with
  | none => (none, world.noted [.reached call.ip call.now])
  | some cached =>
    match cached.expiresAt with
    | some (some expiresAt) =>
      if expiresAt ≤ call.now then
        let dropped := { world with verifier :=
          { world.verifier with cache := world.verifier.cache.delete hashHex } }
        let answered := dropped.leave.refuseIp options call.ip call.now .expired
        (some answered.1, answered.2)
      else
        (some (.ok cached.token), world.leave.noted
          [.answered call.ip call.now (.ok cached.token) none])
    | _ =>
      (some (.ok cached.token), world.leave.noted
        [.answered call.ip call.now (.ok cached.token) none])

/-- After `#findTokenId` has found nothing. -/
def refuseUnknown (call : VerifyCall) (world : World) : VerifyResult × World :=
  world.leave.refuseIp options call.ip call.now .unknownToken

/-- After `#findTokenId` has found a token. -/
def checkTokenLockout (tokenId : String) (call : VerifyCall) (world : World) :
    Option VerifyResult × World :=
  if tokenId ∈ world.verifier.tokenLockouts then
    let result := .refused .tokenLockedOut none
    (some result, world.leave.noted [.answered call.ip call.now result none])
  else (none, world)

/-- After `tokenStore.get`: the verdict. -/
def conclude (record : Option AuthTokenRecord) (hashHex tokenId : String)
    (call : VerifyCall) (world : World) : VerifyResult × World :=
  let refuseToken (reason : VerifyFailureReason) : VerifyResult × World :=
    refuseIp options
      { world.leave with verifier :=
          world.leave.verifier.noteTokenFailure options tokenId call.now }
      call.ip call.now reason
  match record with
  | none => world.leave.refuseIp options call.ip call.now .unknownToken
  | some record =>
    if record.revokedAt.isSome then refuseToken .revoked
    else
      let expiresAtMs := record.expiresAt.map Timestamp.parse
      let expired (expiresAt : Int) : Bool := expiresAt ≤ call.now
      if (expiresAtMs.bind id).any expired then
        refuseToken .expired
      else
        let verified := recordToVerified record call.env expiresAtMs
        let ttlMs := computeCacheTtlMs call.now expiresAtMs options.cacheTtlMaxMs
        let cache := world.verifier.cache.set hashHex ⟨verified, expiresAtMs⟩ ttlMs
          call.now
        (.ok verified, noted
          { world.leave with verifier := { world.leave.verifier with cache := cache } }
          [.answered call.ip call.now (.ok verified) none])

/-- A store call of `verify` has rejected. -/
def abandon (call : VerifyCall) (world : World) : World :=
  world.leave.noted [.threw call.ip call.now]

end World

def assertPepperStrength (pepper : Bytes) : AuthProgram Unit := do
  let strength ← ask (.assess pepper)
  if strength.ok then pure () else .fail (.weakPepper strength)

def findTokenId (options : VerifierOptions) (hashHex : String) :
    AuthProgram (Option String) :=
  if options.indexed then do
    let record ← awaiting (← ask (.getByHash hashHex))
    return record.bind fun record =>
      if timingSafeEqualHex record.hashHex hashHex then some record.id else none
  else do
    let records ← awaiting (← ask .list)
    return (records.find? fun record =>
      timingSafeEqualHex record.hashHex hashHex).map AuthTokenRecord.id

def lookUp (options : VerifierOptions) (rawToken : String) (call : VerifyCall) :
    AuthProgram VerifyResult := do
  let hashHex ← ask (.hmac options.pepper rawToken)
  match ← ask (.consultCache hashHex call) with
  | some result => pure result
  | none => do
      match ← findTokenId options hashHex with
      | none => ask (.refuseUnknown call)
      | some tokenId => do
          match ← ask (.checkTokenLockout tokenId call) with
          | some result => do
              .tell ⟨"auth:denied:lockout", tokenId, call.now⟩
              pure result
          | none => do
              let record ← awaiting (← ask (.get tokenId))
              let result ← ask (.conclude record hashHex tokenId call)
              match result with
              | .ok _ => do
                  -- Best effort: a rejection of this call is swallowed.
                  let _ ← ask (.recordUse tokenId (.iso call.now))
                  .tell ⟨"auth:granted", tokenId, call.now⟩
              | .refused _ _ => pure ()
              pure result

def verify (options : VerifierOptions) (rawToken : String) (ip : Option String) :
    AuthProgram VerifyResult := do
  assertPepperStrength options.pepper
  match ← ask (.beginVerify rawToken ip) with
  | .overloaded inFlight cap => .fail (.overload inFlight cap)
  | .answered result => pure result
  | .proceeding call =>
    (lookUp options rawToken call).catchFail fun error => do
      ask (.abandon call)
      .fail error

end Graphorin.Auth
