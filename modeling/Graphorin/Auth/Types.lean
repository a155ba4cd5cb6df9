import Graphorin.Auth.TokenFormat
import Graphorin.Lib.OrderedMap
import Graphorin.Lib.Program

namespace Graphorin.Auth

open Graphorin.Js
open Graphorin.Lib (Interface Program OrderedMap)

/-! Tokens, what is kept of them, and what the token functions ask of the world
around them. -/

/-- An ISO timestamp by the instant it denotes, or a text that `Date.parse`
makes `NaN` of. -/
inductive Timestamp
  | iso (ms : Int)
  | unreadable (text : String)
  deriving DecidableEq

def Timestamp.parse : Timestamp → Option Int
  | .iso ms => some ms
  | .unreadable _ => none

structure AuthTokenRecord where
  id : String
  hashHex : String
  label : Option String
  scopes : List String
  createdAt : Timestamp
  expiresAt : Option Timestamp
  revokedAt : Option Timestamp
  lastUsedAt : Option Timestamp
  deriving DecidableEq

structure TokenMetadata where
  id : String
  label : Option String
  scopes : List String
  createdAt : Timestamp
  expiresAt : Option Timestamp
  revokedAt : Option Timestamp
  lastUsedAt : Option Timestamp
  deriving DecidableEq

/-- `expiresAt` is `some none` when it is `NaN`. -/
structure VerifiedToken where
  tokenId : String
  label : Option String
  scopes : List ParsedScope
  env : String
  expiresAt : Option (Option Int)
  deriving DecidableEq

inductive VerifyFailureReason
  | malformed
  | unknownToken
  | revoked
  | expired
  | ipLockedOut
  | tokenLockedOut
  deriving DecidableEq

inductive VerifyResult
  | ok (token : VerifiedToken)
  | refused (reason : VerifyFailureReason) (retryAfterMs : Option Nat)
  deriving DecidableEq

structure SecretStrength where
  ok : Bool
  byteLength : Nat
  reason : Option String
  deriving DecidableEq

/-- What `node:crypto` and the strength heuristics make of a pepper. -/
structure Crypto where
  hmac : Bytes → String → Bytes
  hmac_length : ∀ pepper raw, (hmac pepper raw).length = 32
  assess : Bytes → SecretStrength

inductive AuthError
  | store
  | weakPepper (strength : SecretStrength)
  | overload (inFlight cap : Nat)
  | scope (error : ScopeParseError)
  | format (error : FormatRangeError)
  | expiresInMs
  | invalidTime
  | unknownToken (id : String)
  deriving DecidableEq

/-- What `randomBytes(32)` gives. -/
abbrev Entropy := { bytes : Bytes // bytes.length = tokenEntropyBytes }

/-- `expiresAt` is absent when the entry never expires. -/
structure CacheEntry (ν : Type) where
  value : ν
  expiresAt : Option Int

structure LruCache (κ ν : Type) where
  max : Nat
  map : OrderedMap κ (CacheEntry ν)

structure CachedAuth where
  token : VerifiedToken
  expiresAt : Option (Option Int)

structure RateWindow where
  count : Nat := 0
  lastTouch : Nat := 0
  deriving DecidableEq

structure TokenVerifier where
  cache : LruCache String CachedAuth
  ipFailures : OrderedMap String RateWindow
  ipLockouts : OrderedMap String Nat
  tokenFailures : OrderedMap String RateWindow
  tokenLockouts : List String
  inFlight : Nat

/-- `indexed` says whether the token store has `getByHash`. -/
structure VerifierOptions where
  pepper : Bytes
  indexed : Bool
  parseOpts : ParseTokenOptions := {}
  cacheCapacity : Nat := 1024
  cacheTtlMaxMs : Nat := 60000
  perIpFailureThreshold : Nat := 5
  perIpWindowMs : Nat := 60000
  perIpLockoutMs : Nat := 300000
  perTokenFailureThreshold : Nat := 10
  perTokenWindowMs : Nat := 300000
  maxConcurrentVerify : Nat := 100
  maxTrackedIps : Nat := 10000

def TokenVerifier.new (options : VerifierOptions) : TokenVerifier where
  cache := ⟨options.cacheCapacity, .empty⟩
  ipFailures := .empty
  ipLockouts := .empty
  tokenFailures := .empty
  tokenLockouts := []
  inFlight := 0

/-- One `verify` call between its checks and its verdict. -/
structure VerifyCall where
  ip : Option String
  now : Nat
  env : String
  deriving DecidableEq

/-! The world: the clock, the token rows, the verifier, the generators, and a
record of what the verifier has done. -/

/-- `lockedUntil` is present when the verdict locks its address out. -/
inductive Event
  | entered (ip : Option String) (now : Nat)
  | reached (ip : Option String) (now : Nat)
  | answered (ip : Option String) (now : Nat) (result : VerifyResult)
      (lockedUntil : Option Nat)
  | threw (ip : Option String) (now : Nat)
  | evicted (ip : String)
  deriving DecidableEq

structure World where
  clock : Nat
  records : OrderedMap String AuthTokenRecord
  verifier : TokenVerifier
  /-- Texts whose digest `invalidate` still has to compute. -/
  invalidating : List String
  uuids : Nat → String
  entropy : Nat → Entropy
  drawn : Nat
  /-- Which of the store's calls reject, by their number. -/
  rejects : Nat → Bool
  storeCalls : Nat
  log : List Event

inductive BeginVerify
  | overloaded (inFlight cap : Nat)
  | answered (result : VerifyResult)
  | proceeding (call : VerifyCall)

inductive AuthOp
  | put (record : AuthTokenRecord)
  | get (id : String)
  | list
  | revoke (id : String) (revokedAt : Timestamp)
  | recordUse (id : String) (usedAt : Timestamp)
  | getByHash (hashHex : String)
  | assess (pepper : Bytes)
  | hmac (pepper : Bytes) (raw : String)
  | now
  | randomUUID
  | randomBytes
  | beginVerify (rawToken : String) (ip : Option String)
  | consultCache (hashHex : String) (call : VerifyCall)
  | refuseUnknown (call : VerifyCall)
  | checkTokenLockout (tokenId : String) (call : VerifyCall)
  | conclude (record : Option AuthTokenRecord) (hashHex tokenId : String)
      (call : VerifyCall)
  | abandon (call : VerifyCall)
  | invalidate (hashHex : String)
  | finishInvalidation
  | elapse (ms : Nat)

abbrev StoreAnswer (α : Type) := Except AuthError α

abbrev AuthOp.Answer : AuthOp → Type
  | .put _ => StoreAnswer Unit
  | .get _ => StoreAnswer (Option AuthTokenRecord)
  | .list => StoreAnswer (List AuthTokenRecord)
  | .revoke _ _ => StoreAnswer Unit
  | .recordUse _ _ => StoreAnswer Unit
  | .getByHash _ => StoreAnswer (Option AuthTokenRecord)
  | .assess _ => SecretStrength
  | .hmac _ _ => String
  | .now => Nat
  | .randomUUID => String
  | .randomBytes => Entropy
  | .beginVerify _ _ => BeginVerify
  | .consultCache _ _ => Option VerifyResult
  | .refuseUnknown _ => VerifyResult
  | .checkTokenLockout _ _ => Option VerifyResult
  | .conclude _ _ _ _ => VerifyResult
  | .abandon _ => Unit
  | .invalidate _ => Unit
  | .finishInvalidation => Unit
  | .elapse _ => Unit

abbrev AuthIface : Interface := ⟨AuthOp, AuthOp.Answer⟩

structure AuthAuditEvent where
  action : String
  target : String
  ts : Nat
  deriving DecidableEq

abbrev AuthProgram (α : Type) := Program AuthIface AuthAuditEvent AuthError α

def ask (op : AuthOp) : AuthProgram op.Answer := .call op .done

def awaiting {α : Type} (answer : StoreAnswer α) : AuthProgram α :=
  .ofExcept answer

end Graphorin.Auth
