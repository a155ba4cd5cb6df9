import Graphorin.Auth.Verifier

namespace Graphorin.Auth

open Graphorin.Js
open Graphorin.Lib (Program Handler OrderedMap)

/-! The token functions, and the world that answers them. -/

abbrev Millis := Option Int

structure CreateTokenOptions where
  pepper : Bytes
  env : String
  scopes : List String
  label : Option String := none
  tokenPrefix : Option String := none
  expiresInMs : Option Millis := none
  expiresAt : Option Millis := none
  idOverride : Option String := none

structure CreatedToken where
  raw : String
  record : AuthTokenRecord
  deriving DecidableEq

def toTokenMetadata (record : AuthTokenRecord) : TokenMetadata where
  id := record.id
  label := record.label
  scopes := record.scopes
  createdAt := record.createdAt
  expiresAt := record.expiresAt
  revokedAt := record.revokedAt
  lastUsedAt := record.lastUsedAt

/-- `new Date(ms).toISOString()`, which knows a bounded range of instants. -/
def toISOString (ms : Millis) : Except AuthError Timestamp :=
  match ms with
  | none => .error .invalidTime
  | some ms =>
    if ms.natAbs ≤ 8640000000000000 then .ok (.iso ms) else .error .invalidTime

def resolveExpiresAt (options : CreateTokenOptions) (now : Nat) :
    Except AuthError (Option Timestamp) :=
  match options.expiresAt with
  | some expiresAt => (toISOString expiresAt).map some
  | none =>
    match options.expiresInMs with
    | none => .ok none
    | some none => .error .expiresInMs
    | some (some expiresInMs) =>
      if expiresInMs ≤ 0 then .error .expiresInMs
      else (toISOString (some (now + expiresInMs))).map some

def createToken (options : CreateTokenOptions) : AuthProgram CreatedToken := do
  match validateScopeSet options.scopes with
  | first :: _ => .fail (.scope first)
  | [] => do
      assertPepperStrength options.pepper
      let entropyBytes ← ask .randomBytes
      let raw ← .ofExcept
        ((generateRawToken options.tokenPrefix options.env entropyBytes.val).mapError
          .format)
      let hashHex ← ask (.hmac options.pepper raw)
      let id ← match options.idOverride with
        | some id => pure id
        | none => ask .randomUUID
      let now ← ask .now
      let createdAt ← .ofExcept (toISOString (some now))
      let expiresAt ← .ofExcept (resolveExpiresAt options now)
      let record : AuthTokenRecord :=
        { id := id, hashHex := hashHex, label := options.label,
          scopes := options.scopes, createdAt := createdAt, expiresAt := expiresAt,
          revokedAt := none, lastUsedAt := none }
      awaiting (← ask (.put record))
      .tell ⟨"token:create", id, now⟩
      return ⟨raw, record⟩

/-- `withVerifier`: the options name the live verifier. -/
def revokeToken (id : String) (withVerifier : Bool) :
    AuthProgram (Option TokenMetadata) := do
  match ← awaiting (← ask (.get id)) with
  | none => pure none
  | some existing =>
    if existing.revokedAt.isSome then pure (some (toTokenMetadata existing))
    else do
      if withVerifier then ask (.invalidate existing.hashHex)
      let now ← ask .now
      .tell ⟨"token:revoke", id, now⟩
      let ts ← .ofExcept (toISOString (some now))
      awaiting (← ask (.revoke id ts))
      let updated ← awaiting (← ask (.get id))
      return updated.map toTokenMetadata

structure RotateTokenOptions where
  id : String
  pepper : Bytes
  env : Option String := none
  scopesOverride : Option (List String) := none
  label : Option String := none
  tokenPrefix : Option String := none
  expiresInMs : Option Millis := none
  expiresAt : Option Millis := none
  withVerifier : Bool := false

structure RotatedToken where
  old : TokenMetadata
  next : CreatedToken
  deriving DecidableEq

def inferEnvFromExisting (_record : AuthTokenRecord) : String := "live"

/-- What the rotation passes on to `createToken`. -/
def RotateTokenOptions.created (options : RotateTokenOptions)
    (existing : AuthTokenRecord) : CreateTokenOptions where
  pepper := options.pepper
  env := options.env.getD (inferEnvFromExisting existing)
  scopes := options.scopesOverride.getD existing.scopes
  label := options.label
  tokenPrefix := options.tokenPrefix
  expiresInMs := options.expiresInMs
  expiresAt := options.expiresAt

def rotateToken (options : RotateTokenOptions) : AuthProgram RotatedToken := do
  match ← awaiting (← ask (.get options.id)) with
  | none => .fail (.unknownToken options.id)
  | some existing => do
      let ts ← .ofExcept (toISOString (some (← ask .now)))
      awaiting (← ask (.revoke options.id ts))
      if options.withVerifier then ask (.invalidate existing.hashHex)
      let next ← createToken (options.created existing)
      let refreshed ← awaiting (← ask (.get options.id))
      let now ← ask .now
      .tell ⟨"token:rotate", options.id, now⟩
      return ⟨toTokenMetadata (refreshed.getD existing), next⟩

structure RekeyTokensOptions where
  pepper : Bytes
  env : String
  tokenPrefix : Option String := none

def RekeyTokensOptions.rotation (options : RekeyTokensOptions) (id : String) :
    RotateTokenOptions where
  id := id
  pepper := options.pepper
  env := some options.env
  tokenPrefix := options.tokenPrefix

def rekeyEach (options : RekeyTokensOptions) :
    List AuthTokenRecord → OrderedMap String CreatedToken →
      AuthProgram (OrderedMap String CreatedToken)
  | [], out => pure out
  | record :: rest, out =>
    if record.revokedAt.isSome then rekeyEach options rest out
    else do
      let next ← rotateToken (options.rotation record.id)
      rekeyEach options rest (out.set record.id next.next)

def rekeyTokens (options : RekeyTokensOptions) :
    AuthProgram (OrderedMap String CreatedToken) := do
  let records ← awaiting (← ask .list)
  let out ← rekeyEach options records .empty
  let now ← ask .now
  .tell ⟨"token:rekey", "all", now⟩
  return out

namespace World

def storeCall {α : Type} (world : World) (value : α)
    (records : OrderedMap String AuthTokenRecord) : StoreAnswer α × World :=
  if world.rejects world.storeCalls then
    (.error .store, { world with storeCalls := world.storeCalls + 1 })
  else
    (.ok value, { world with storeCalls := world.storeCalls + 1, records := records })

/-- `UPDATE ... WHERE id = ?` -/
def update (world : World) (id : String) (f : AuthTokenRecord → AuthTokenRecord) :
    OrderedMap String AuthTokenRecord :=
  match world.records.get id with
  | none => world.records
  | some record => world.records.set id (f record)

def rows (world : World) : List AuthTokenRecord := world.records.entries.map Prod.snd

def dropCached (world : World) (hashHex : String) : World :=
  { world with verifier :=
    { world.verifier with cache := world.verifier.cache.delete hashHex } }

/-- `TokenVerifier.invalidate`. -/
def invalidate (world : World) (text : String) : World :=
  if hexText text then world.dropCached text
  else { world with invalidating := world.invalidating ++ [text] }

end World

def handle (crypto : Crypto) (options : VerifierOptions) : Handler AuthIface World
  | .put record, world =>
    world.storeCall () (world.records.set record.id record)
  | .get id, world => world.storeCall (world.records.get id) world.records
  | .list, world => world.storeCall world.rows world.records
  | .revoke id revokedAt, world =>
    world.storeCall ()
      (world.update id fun record => { record with revokedAt := some revokedAt })
  | .recordUse id usedAt, world =>
    world.storeCall ()
      (world.update id fun record => { record with lastUsedAt := some usedAt })
  | .getByHash hashHex, world =>
    world.storeCall (world.rows.find? fun record => record.hashHex = hashHex)
      world.records
  | .assess pepper, world => (crypto.assess pepper, world)
  | .hmac pepper raw, world => (Bytes.toHex (crypto.hmac pepper raw), world)
  | .now, world => (world.clock, world)
  | .randomUUID, world =>
    (world.uuids world.drawn, { world with drawn := world.drawn + 1 })
  | .randomBytes, world =>
    (world.entropy world.drawn, { world with drawn := world.drawn + 1 })
  | .beginVerify rawToken ip, world => world.beginVerify options rawToken ip
  | .consultCache hashHex call, world => world.consultCache options hashHex call
  | .refuseUnknown call, world => world.refuseUnknown options call
  | .checkTokenLockout tokenId call, world => world.checkTokenLockout tokenId call
  | .conclude record hashHex tokenId call, world =>
    world.conclude options record hashHex tokenId call
  | .abandon call, world => ((), world.abandon call)
  | .invalidate hashHex, world => ((), world.invalidate hashHex)
  | .finishInvalidation, world =>
    match world.invalidating with
    | [] => ((), world)
    | text :: rest =>
      ((), { world with invalidating := rest }.dropCached
        (Bytes.toHex (crypto.hmac options.pepper text)))
  | .elapse ms, world => ((), { world with clock := world.clock + ms })

end Graphorin.Auth
