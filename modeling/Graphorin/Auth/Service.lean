import Graphorin.Auth.Crud
import Graphorin.Lib.Protocol

namespace Graphorin.Auth

open Graphorin.Lib (Program Handler OrderedMap Pool Action)

/-! One verifier and the calls made of it, interleaved. -/

inductive Task
  | verify (rawToken : String) (ip : Option String)
  | revoke (id : String)
  | rotate (options : RotateTokenOptions)
  | elapse (ms : Nat)
  | finishInvalidation

inductive Outcome
  | verified (result : VerifyResult)
  | revoked (token : Option TokenMetadata)
  | rotated (token : RotatedToken)
  | passed
  deriving DecidableEq

/-- Revocations and rotations are told of the verifier. -/
def Task.program (options : VerifierOptions) : Task → AuthProgram Outcome
  | .verify rawToken ip => do return .verified (← Auth.verify options rawToken ip)
  | .revoke id => do return .revoked (← revokeToken id true)
  | .rotate rotation => do
      return .rotated (← rotateToken { rotation with withVerifier := true })
  | .elapse ms => do
      ask (.elapse ms)
      return .passed
  | .finishInvalidation => do
      ask .finishInvalidation
      return .passed

/-- The token a task revokes. -/
def Task.target : Task → Option String
  | .revoke id => some id
  | .rotate options => some options.id
  | _ => none

abbrev AuthAction := Action AuthIface AuthAuditEvent

abbrev did (op : AuthOp) (answer : op.Answer) : AuthAction := .called op answer

abbrev Service (ι : Type) := Pool AuthIface AuthAuditEvent AuthError Outcome World ι

def Service.start {ι : Type} (options : VerifierOptions) (tasks : ι → Task)
    (world : World) : Service ι :=
  Pool.start (fun process => (tasks process).program options) world

/-- A token store as the token functions leave it, a verifier just made, and
generators that do not repeat what is already stored. -/
structure World.Ready (options : VerifierOptions) (world : World) : Prop where
  keyed : ∀ id record, world.records.get id = some record → record.id = id
  hashed : ∀ id record, world.records.get id = some record →
    ∃ bytes : Js.Bytes, bytes.length = 32 ∧ record.hashHex = Js.Bytes.toHex bytes
  verifier : world.verifier = .new options
  distinct : Function.Injective world.uuids
  fresh : ∀ draw, world.drawn ≤ draw → world.records.get (world.uuids draw) = none

section Effects

variable {crypto : Crypto} {options : VerifierOptions} {world : World}

inductive RowStep (id : String) (before after : Option AuthTokenRecord) :
    AuthAction → Prop
  | same {action} (same : after = before) : RowStep id before after action
  | put {record} (own : record.id = id) (put : after = some record) :
      RowStep id before after (.called (.put record) (.ok ()))
  | revoked {record ts} (found : before = some record)
      (stamped : after = some { record with revokedAt := some ts }) :
      RowStep id before after (.called (.revoke id ts) (.ok ()))
  | used {record ts} (found : before = some record)
      (stamped : after = some { record with lastUsedAt := some ts }) :
      RowStep id before after (.called (.recordUse id ts) (.ok ()))

theorem storeCall_cases {α : Type} (value : α)
    (records : OrderedMap String AuthTokenRecord) :
    ((world.storeCall value records).1 = .error .store ∧
        (world.storeCall value records).2.records = world.records) ∨
      (world.storeCall value records).1 = .ok value ∧
        (world.storeCall value records).2.records = records := by
  unfold World.storeCall
  split
  · exact .inl ⟨rfl, rfl⟩
  · exact .inr ⟨rfl, rfl⟩

variable {α : Type}

@[simp] theorem storeCall_verifier (value : α) (records : OrderedMap String AuthTokenRecord) :
    (world.storeCall value records).2.verifier = world.verifier := by
  unfold World.storeCall
  split <;> rfl

theorem get_update (id other : String) (f : AuthTokenRecord → AuthTokenRecord) :
    (world.update id f).get other =
      if other = id then (world.records.get id).map f
      else world.records.get other := by
  unfold World.update
  split
  · rename_i absent
    split
    · rename_i same
      rw [same, absent]
      rfl
    · rfl
  · rename_i record found
    rw [OrderedMap.get_set, found]
    rfl

structure Framed (before after : World) : Prop where
  records : after.records = before.records
  clock : after.clock = before.clock
  drawn : after.drawn = before.drawn
  uuids : after.uuids = before.uuids

variable (verifier : TokenVerifier)

theorem framed_of (log : List Event) :
    Framed world { world with verifier := verifier, log := log } :=
  ⟨rfl, rfl, rfl, rfl⟩

theorem parseAndProceed_framed (rawToken : String) (ip : Option String) (now : Nat) :
    Framed world (world.parseAndProceed options rawToken ip now).2 := by
  unfold World.parseAndProceed
  split <;> exact framed_of ..

theorem Framed.trans (first : Framed world middle) (second : Framed middle after) :
    Framed world after :=
  ⟨second.records.trans first.records, second.clock.trans first.clock,
    second.drawn.trans first.drawn, second.uuids.trans first.uuids⟩

theorem beginVerify_framed (rawToken : String) (ip : Option String) :
    Framed world (world.beginVerify options rawToken ip).2 := by
  unfold World.beginVerify
  split
  · exact framed_of ..
  · dsimp only
    split
    · exact Framed.trans (framed_of ..) (parseAndProceed_framed ..)
    · split
      · exact Framed.trans (framed_of ..) (parseAndProceed_framed ..)
      · split
        · exact framed_of ..
        · exact Framed.trans (framed_of ..) (parseAndProceed_framed ..)

theorem consultCache_framed (hashHex : String) (call : VerifyCall) :
    Framed world (world.consultCache options hashHex call).2 := by
  unfold World.consultCache
  dsimp only
  split
  · exact framed_of ..
  · split
    · split <;> exact framed_of ..
    · exact framed_of ..

theorem checkTokenLockout_framed (tokenId : String) (call : VerifyCall) :
    Framed world (world.checkTokenLockout tokenId call).2 := by
  unfold World.checkTokenLockout
  split <;> exact framed_of ..

theorem conclude_framed (record : Option AuthTokenRecord) (hashHex tokenId : String)
    (call : VerifyCall) :
    Framed world (world.conclude options record hashHex tokenId call).2 := by
  unfold World.conclude
  dsimp only
  split
  · exact framed_of ..
  · split
    · exact framed_of ..
    · split <;> exact framed_of ..

theorem storeCall_framed (value : α) (records : OrderedMap String AuthTokenRecord) :
    (world.storeCall value records).2.clock = world.clock ∧
      (world.storeCall value records).2.drawn = world.drawn ∧
      (world.storeCall value records).2.uuids = world.uuids := by
  unfold World.storeCall
  split
  · exact ⟨rfl, rfl, rfl⟩
  · exact ⟨rfl, rfl, rfl⟩

/-- The generators move on, and give what they always would. -/
theorem generators (op : AuthOp) :
    world.drawn ≤ (handle crypto options op world).2.drawn ∧
      (handle crypto options op world).2.uuids = world.uuids := by
  have framed {after : World} (frame : Framed world after) :
      world.drawn ≤ after.drawn ∧ after.uuids = world.uuids :=
    ⟨frame.drawn.ge, frame.uuids⟩
  have stored {α : Type} (value : α) (records : OrderedMap String AuthTokenRecord) :
      world.drawn ≤ (world.storeCall value records).2.drawn ∧
        (world.storeCall value records).2.uuids = world.uuids :=
    ⟨(storeCall_framed value records).2.1.ge, (storeCall_framed value records).2.2⟩
  cases op with
  | put => exact stored _ _
  | get => exact stored _ _
  | list => exact stored _ _
  | revoke => exact stored _ _
  | recordUse => exact stored _ _
  | getByHash => exact stored _ _
  | beginVerify => exact framed (beginVerify_framed ..)
  | consultCache => exact framed (consultCache_framed ..)
  | refuseUnknown => exact framed (framed_of ..)
  | checkTokenLockout => exact framed (checkTokenLockout_framed ..)
  | conclude => exact framed (conclude_framed ..)
  | abandon => exact framed (framed_of ..)
  | invalidate =>
    rw [handle, World.invalidate]
    split <;> exact ⟨le_rfl, rfl⟩
  | finishInvalidation =>
    rw [handle]
    split <;> exact ⟨le_rfl, rfl⟩
  | randomUUID => exact ⟨Nat.le_succ _, rfl⟩
  | randomBytes => exact ⟨Nat.le_succ _, rfl⟩
  | assess => exact ⟨le_rfl, rfl⟩
  | hmac => exact ⟨le_rfl, rfl⟩
  | now => exact ⟨le_rfl, rfl⟩
  | elapse => exact ⟨le_rfl, rfl⟩

theorem rowStep_of_storeCall {id : String} {value : α}
    {records : OrderedMap String AuthTokenRecord} (action : StoreAnswer α → AuthAction)
    (step : RowStep id (world.records.get id) (records.get id) (action (.ok value))) :
    RowStep id (world.records.get id)
      ((world.storeCall value records).2.records.get id)
      (action (world.storeCall value records).1) := by
  rcases @storeCall_cases world _ value records with
    ⟨-, unchanged⟩ | ⟨answered, changed⟩
  · exact .same (by rw [unchanged])
  · rw [answered, changed]
    exact step

theorem rowStep (id : String) (op : AuthOp) : RowStep id (world.records.get id)
      ((handle crypto options op world).2.records.get id)
      (did op (handle crypto options op world).1) := by
  cases op with
  | put record =>
    refine rowStep_of_storeCall (did (.put record)) ?_
    by_cases own : record.id = id
    · exact .put own (by rw [OrderedMap.get_set, if_pos own.symm])
    · exact .same (by rw [OrderedMap.get_set, if_neg (Ne.symm own)])
  | revoke other ts =>
    refine rowStep_of_storeCall (did (.revoke other ts)) ?_
    by_cases own : id = other
    · subst own
      rw [get_update, if_pos rfl]
      cases found : world.records.get id with
      | none => exact .same rfl
      | some => exact .revoked rfl rfl
    · exact .same (by rw [get_update, if_neg own])
  | recordUse other ts =>
    refine rowStep_of_storeCall (did (.recordUse other ts)) ?_
    by_cases own : id = other
    · subst own
      rw [get_update, if_pos rfl]
      cases found : world.records.get id with
      | none => exact .same rfl
      | some => exact .used rfl rfl
    · exact .same (by rw [get_update, if_neg own])
  | get other =>
    exact rowStep_of_storeCall (did (.get other)) (.same rfl)
  | list =>
    exact rowStep_of_storeCall (did .list) (.same rfl)
  | getByHash hashHex =>
    exact rowStep_of_storeCall (did (.getByHash hashHex)) (.same rfl)
  | beginVerify =>
    exact .same (by rw [handle, (beginVerify_framed ..).records])
  | consultCache =>
    exact .same (by rw [handle, (consultCache_framed ..).records])
  | refuseUnknown => exact .same rfl
  | checkTokenLockout =>
    exact .same (by rw [handle, (checkTokenLockout_framed ..).records])
  | conclude =>
    exact .same (by rw [handle, (conclude_framed ..).records])
  | invalidate =>
    refine .same ?_
    rw [handle, World.invalidate]
    split <;> rfl
  | finishInvalidation =>
    refine .same ?_
    rw [handle]
    split <;> rfl
  | assess => exact .same rfl
  | hmac => exact .same rfl
  | now => exact .same rfl
  | randomUUID => exact .same rfl
  | randomBytes => exact .same rfl
  | abandon => exact .same rfl
  | elapse => exact .same rfl

def entryAt (world : World) (key : String) : Option (CacheEntry CachedAuth) :=
  world.verifier.cache.map.get key

variable {κ ν : Type} {now : Nat}

variable {cache : LruCache κ ν} {asked key : κ} {entry : CacheEntry ν}

theorem LruCache.get_subset [DecidableEq κ]
    (kept : (cache.get asked now).2.map.get key = some entry) :
    cache.map.get key = some entry := by
  have touched : ∀ {found : CacheEntry ν}, cache.map.get asked = some found →
      ((cache.map.delete asked).set asked found).get key = some entry →
        cache.map.get key = some entry := by
    intro found known here
    rw [OrderedMap.get_set, OrderedMap.get_delete] at here
    split at here
    · rename_i same
      rw [same, known, here]
    · exact here
  unfold LruCache.get at kept
  split at kept
  · exact kept
  · rename_i found known
    split at kept
    · split at kept
      · rw [OrderedMap.get_delete] at kept
        split at kept
        · cases kept
        · exact kept
      · exact touched known kept
    · exact touched known kept

variable {value : ν}

theorem LruCache.set_subset [DecidableEq κ] {stored : κ} {ttlMs : Option Int}
    (kept : (cache.set stored value ttlMs now).map.get key = some entry) :
    cache.map.get key = some entry ∨ key = stored ∧ entry.value = value := by
  unfold LruCache.set at kept
  simp only [OrderedMap.get_deleteAll] at kept
  split at kept
  · cases kept
  · rw [OrderedMap.get_set, OrderedMap.get_delete] at kept
    split at kept
    · rename_i same
      cases kept
      exact .inr ⟨same, rfl⟩
    · exact .inl kept

theorem LruCache.get_value [DecidableEq κ] (answered : (cache.get asked now).1 = some value)
    : ∃ entry, cache.map.get asked = some entry ∧ entry.value = value := by
  unfold LruCache.get at answered
  split at answered
  · cases answered
  · rename_i entry known
    refine ⟨entry, known, ?_⟩
    split at answered
    · split at answered
      · cases answered
      · exact Option.some.inj answered
    · exact Option.some.inj answered

@[simp] theorem noteIpFailure_cache (ip : Option String) (now : Nat) :
    (verifier.noteIpFailure options ip now).cache = verifier.cache := by
  unfold TokenVerifier.noteIpFailure
  split
  · rfl
  · unfold TokenVerifier.boundIpMaps TokenVerifier.countIpFailure
    dsimp only
    split <;> rfl

@[simp] theorem noteTokenFailure_cache (tokenId : String) (now : Nat) :
    (verifier.noteTokenFailure options tokenId now).cache = verifier.cache := by
  unfold TokenVerifier.noteTokenFailure
  dsimp only
  split <;> rfl

@[simp] theorem refuseIp_cache (ip : Option String) (now : Nat)
    (reason : VerifyFailureReason) :
    (world.refuseIp options ip now reason).2.verifier.cache =
      world.verifier.cache := noteIpFailure_cache ..

theorem parseAndProceed_cache (rawToken : String) (ip : Option String) (now : Nat) :
    (world.parseAndProceed options rawToken ip now).2.verifier.cache =
      world.verifier.cache := by
  unfold World.parseAndProceed
  split
  · simp
  · rfl

theorem beginVerify_cache (rawToken : String) (ip : Option String) :
    (world.beginVerify options rawToken ip).2.verifier.cache =
      world.verifier.cache := by
  unfold World.beginVerify
  split
  · rfl
  · dsimp only
    split
    · exact parseAndProceed_cache ..
    · split
      · exact parseAndProceed_cache ..
      · split
        · rfl
        · exact parseAndProceed_cache ..

variable {hashHex key : String} {call : VerifyCall} {entry : CacheEntry CachedAuth}

theorem consultCache_entry
    (kept : entryAt (world.consultCache options hashHex call).2 key = some entry) :
    entryAt world key = some entry := by
  unfold World.consultCache at kept
  dsimp only at kept
  split at kept
  · exact LruCache.get_subset kept
  · split at kept
    · split at kept
      · simp only [entryAt, refuseIp_cache, World.leave, LruCache.delete] at kept
        rw [OrderedMap.get_delete] at kept
        split at kept
        · cases kept
        · exact LruCache.get_subset kept
      · exact LruCache.get_subset kept
    · exact LruCache.get_subset kept

theorem checkTokenLockout_cache (tokenId : String) (call : VerifyCall) :
    (world.checkTokenLockout tokenId call).2.verifier.cache =
      world.verifier.cache := by
  unfold World.checkTokenLockout
  split <;> rfl

variable {token : VerifiedToken}

variable {rawToken : String} {ip : Option String}

theorem parseAndProceed_refuses :
    (world.parseAndProceed options rawToken ip now).1 ≠ .answered (.ok token) := by
  intro answered
  unfold World.parseAndProceed at answered
  split at answered <;> cases answered

theorem beginVerify_refuses :
    (world.beginVerify options rawToken ip).1 ≠ .answered (.ok token) := by
  intro answered
  unfold World.beginVerify at answered
  split at answered
  · cases answered
  · dsimp only at answered
    split at answered
    · exact parseAndProceed_refuses answered
    · split at answered
      · exact parseAndProceed_refuses answered
      · split at answered
        · cases answered
        · exact parseAndProceed_refuses answered

variable {tokenId : String}

theorem checkTokenLockout_refuses :
    (world.checkTokenLockout tokenId call).1 ≠ some (.ok token) := by
  intro answered
  unfold World.checkTokenLockout at answered
  split at answered <;> cases answered

theorem conclude_ok
    (answered : (world.conclude options record hashHex tokenId call).1 = .ok token) :
    ∃ found, record = some found ∧ found.revokedAt = none ∧
      token.tokenId = found.id := by
  unfold World.conclude at answered
  dsimp only at answered
  split at answered
  · cases answered
  · rename_i found
    refine ⟨found, rfl, ?_⟩
    split at answered
    · cases answered
    · rename_i active
      split at answered
      · cases answered
      · cases answered
        exact ⟨by simpa using active, rfl⟩

theorem conclude_entry {record : Option AuthTokenRecord}
    (kept : entryAt (world.conclude options record hashHex tokenId call).2 key = some entry) :
    entryAt world key = some entry ∨
      ∃ found, record = some found ∧ key = hashHex ∧ found.revokedAt = none ∧
        entry.value.token.tokenId = found.id := by
  unfold World.conclude at kept
  dsimp only at kept
  split at kept
  · exact .inl (by simpa [entryAt, World.leave] using kept)
  · rename_i found
    split at kept
    · exact .inl (by simpa [entryAt, World.leave] using kept)
    · rename_i active
      split at kept
      · exact .inl (by simpa [entryAt, World.leave] using kept)
      · rcases LruCache.set_subset kept with before | ⟨same, value⟩
        · exact .inl before
        · exact .inr ⟨found, rfl, same, by simpa using active, by rw [value]; rfl⟩

theorem consultCache_ok
    (answered : (world.consultCache options hashHex call).1 = some (.ok token)) :
    ∃ entry, entryAt world hashHex = some entry ∧ entry.value.token = token := by
  unfold World.consultCache at answered
  dsimp only at answered
  split at answered
  · cases answered
  · rename_i cached known
    obtain ⟨entry, found, value⟩ := LruCache.get_value known
    refine ⟨entry, found, ?_⟩
    split at answered
    · split at answered
      · cases answered
      · cases answered
        rw [value]
    · cases answered
      rw [value]

theorem dropCached_entry (kept : entryAt (world.dropCached hashHex) key = some entry) :
    key ≠ hashHex ∧ entryAt world key = some entry := by
  simp only [entryAt, World.dropCached, LruCache.delete, OrderedMap.get_delete] at kept
  split at kept
  · cases kept
  · rename_i apart
    exact ⟨apart, kept⟩

theorem entryStep (op : AuthOp)
    (kept : entryAt (handle crypto options op world).2 key = some entry) :
    entryAt world key = some entry ∨
      ∃ record tokenId call, op = .conclude (some record) key tokenId call ∧
        record.revokedAt = none ∧ entry.value.token.tokenId = record.id := by
  cases op with
  | conclude record hashHex tokenId call =>
    rcases conclude_entry kept with before | ⟨found, rfl, rfl, active, own⟩
    · exact .inl before
    · exact .inr ⟨found, tokenId, call, rfl, active, own⟩
  | consultCache => exact .inl (consultCache_entry kept)
  | beginVerify =>
    exact .inl (by simpa only [entryAt, handle, beginVerify_cache] using kept)
  | refuseUnknown =>
    exact .inl (by simpa [entryAt, handle, World.refuseUnknown, World.leave] using kept)
  | checkTokenLockout =>
    exact .inl (by
      simpa only [entryAt, handle, checkTokenLockout_cache] using kept)
  | invalidate =>
    left
    rw [handle, World.invalidate] at kept
    split at kept
    · exact (dropCached_entry kept).2
    · exact kept
  | finishInvalidation =>
    left
    rw [handle] at kept
    split at kept
    · exact kept
    · exact (dropCached_entry kept).2
  | put => exact .inl (by simpa only [entryAt, handle, storeCall_verifier] using kept)
  | get => exact .inl (by simpa only [entryAt, handle, storeCall_verifier] using kept)
  | list => exact .inl (by simpa only [entryAt, handle, storeCall_verifier] using kept)
  | revoke =>
    exact .inl (by simpa only [entryAt, handle, storeCall_verifier] using kept)
  | recordUse =>
    exact .inl (by simpa only [entryAt, handle, storeCall_verifier] using kept)
  | getByHash =>
    exact .inl (by simpa only [entryAt, handle, storeCall_verifier] using kept)
  | assess => exact .inl kept
  | hmac => exact .inl kept
  | now => exact .inl kept
  | randomUUID => exact .inl kept
  | randomBytes => exact .inl kept
  | abandon => exact .inl kept
  | elapse => exact .inl kept

end Effects

end Graphorin.Auth
