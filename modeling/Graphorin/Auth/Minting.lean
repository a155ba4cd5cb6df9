import Graphorin.Auth.Revocation

namespace Graphorin.Auth

open Graphorin.Js
open Graphorin.Lib (Program Handler OrderedMap Pool)

/-! The token routes of the server: tokens that make tokens. -/

inductive AuthState
  | unauthenticated
  | token (token : VerifiedToken) (grantedScopes : List ParsedScope)
  | anonymous (grantedScopes : List ParsedScope)
  deriving DecidableEq

structure TokensRoutesDeps where
  pepper : Bytes
  defaultEnv : String
  allowedEnvs : List String
  withVerifier : Bool

structure CreateBody where
  label : Option String
  scopes : List String
  env : Option String
  expiresInMs : Option Int

/-- What `CreateBodySchema` asks beyond the shape of a body. -/
def CreateBody.accepted (body : CreateBody) : Bool :=
  let atLeast (length : Nat) (text : String) : Bool := length ≤ jsLength text.toList
  body.label.all (atLeast 1) && !body.scopes.isEmpty && body.scopes.all (atLeast 3) &&
    body.env.all (atLeast 1) && body.expiresInMs.all fun ms => 0 < ms

def CreateBody.options (deps : TokensRoutesDeps) (env : String) (body : CreateBody) :
    CreateTokenOptions where
  pepper := deps.pepper
  env := env
  scopes := body.scopes
  label := body.label
  expiresInMs := body.expiresInMs.map some

inductive RequestBody
  | invalidJson
  | misshapen
  | create (body : CreateBody)

inductive TokensRoute
  | list
  | create (body : RequestBody)
  | revoke (id : String)

inductive Reply
  | authRequired (message : String)
  | refused (reason : VerifyFailureReason) (retryAfterMs : Option Nat)
  | scopeDenied (raw : Option String)
  | invalidJson
  | invalidBody
  | envNotAllowed (env : String) (allowed : List String)
  | invalidScopes (messages : List String)
  | scopeEscalationDenied (denied : List String)
  | created (token : CreatedToken)
  | listed (tokens : List TokenMetadata)
  | revoked
  | tokenNotFound (id : String)
  | elapsed
  deriving DecidableEq

/-- `createScopeMiddleware` of a requirement known beforehand: what it answers
in the place of the handler. -/
def scopeMiddleware (requirement : String) (auth : AuthState) : Option Reply :=
  match auth with
  | .anonymous _ => none
  | .unauthenticated =>
    some (.authRequired "Authentication required for this endpoint.")
  | .token _ grantedScopes =>
    match tryParseScope requirement with
    | none => some (.scopeDenied none)
    | some required =>
      if grantedScopes.any fun scope => scopeMatches scope required then none
      else some (.scopeDenied (some requirement))

/-- What a token principal asks for beyond its own grant. -/
def deniedScopes (auth : AuthState) (scopes : List String) : List String :=
  match auth with
  | .token _ grantedScopes =>
    scopes.filter fun requested =>
      match tryParseScope requested with
      | none => true
      | some requestedParsed =>
        (scopeSetMatches (grantedScopes.map .inr) (.inr requestedParsed)).toOption ≠
          some true
  | _ => []

def listTokens : AuthProgram (List TokenMetadata) := do
  let records ← awaiting (← ask .list)
  return (records.filter fun record => record.revokedAt.isNone).map toTokenMetadata

def postToken (deps : TokensRoutesDeps) (auth : AuthState) :
    RequestBody → AuthProgram Reply
  | .invalidJson => pure .invalidJson
  | .misshapen => pure .invalidBody
  | .create body =>
    let env := body.env.getD deps.defaultEnv
    if !body.accepted then pure .invalidBody
    else if env ∉ deps.allowedEnvs then pure (.envNotAllowed env deps.allowedEnvs)
    else
      match validateScopeSet body.scopes with
      | first :: rest =>
        pure (.invalidScopes ((first :: rest).map ScopeParseError.message))
      | [] =>
        match deniedScopes auth body.scopes with
        | first :: rest => pure (.scopeEscalationDenied (first :: rest))
        | [] => do return .created (← createToken (body.options deps env))

def deleteToken (deps : TokensRoutesDeps) (id : String) : AuthProgram Reply := do
  match ← revokeToken id deps.withVerifier with
  | none => return .tokenNotFound id
  | some _ => return .revoked

def TokensRoute.requirement : TokensRoute → String
  | .list => "tokens:list"
  | .create _ => "tokens:create"
  | .revoke _ => "tokens:revoke"

def createTokensRoutes (deps : TokensRoutesDeps) (auth : AuthState)
    (route : TokensRoute) : AuthProgram Reply :=
  match scopeMiddleware route.requirement auth with
  | some reply => pure reply
  | none =>
    match route with
    | .list => do return .listed (← listTokens)
    | .create body => postToken deps auth body
    | .revoke id => deleteToken deps id

/-- A request with its bearer token and address, or the passing of time. -/
inductive Arrival
  | request (bearer ip : Option String) (route : TokensRoute)
  | elapse (ms : Nat)

/-- `createAuthMiddleware` of a server with a verifier, then the routes. -/
def serve (options : VerifierOptions) (deps : TokensRoutesDeps) :
    Arrival → AuthProgram Reply
  | .request none _ _ => pure (.authRequired "Bearer token required.")
  | .request (some rawToken) ip route => do
    match ← verify options rawToken ip with
    | .refused reason retryAfterMs => return .refused reason retryAfterMs
    | .ok token => createTokensRoutes deps (.token token token.scopes) route
  | .elapse ms => do
    ask (.elapse ms)
    return .elapsed

/-! What a token may do. -/

def grants (record : AuthTokenRecord) : List ParsedScope :=
  record.scopes.filterMap tryParseScope

def Allowed (granted : List ParsedScope) (required : ParsedScope) : Prop :=
  ∃ scope ∈ granted, scopeMatches scope required = true

/-- All that is granted here, a token of the store was granted. -/
def Rooted (origin : World) (granted : List ParsedScope) : Prop :=
  ∃ id root, origin.records.get id = some root ∧
    ∀ required, Allowed granted required → Allowed (grants root) required

def creating : ParsedScope := .twoSegment "tokens" "create" "tokens:create"

/-- And that token may create others. -/
def Delegated (origin : World) (granted : List ParsedScope) : Prop :=
  ∃ id root, origin.records.get id = some root ∧ Allowed (grants root) creating ∧
    ∀ required, Allowed granted required → Allowed (grants root) required

theorem Delegated.rooted (delegated : Delegated origin granted) : Rooted origin granted := by
  obtain ⟨id, root, known, -, covers⟩ := delegated
  exact ⟨id, root, known, covers⟩

/-- Nothing is denied: the scopes asked for are within those granted. -/
theorem allowed_of_undenied (undenied : deniedScopes (.token token granted) scopes = [])
    {required : ParsedScope} (allowed : Allowed (scopes.filterMap tryParseScope) required) :
    Allowed granted required := by
  obtain ⟨scope, listed, covers⟩ := allowed
  obtain ⟨text, asked, parsed⟩ := List.mem_filterMap.mp listed
  have kept := List.filter_eq_nil_iff.mp undenied text asked
  rw [parsed] at kept
  simp only [scopeSetMatches, asScope, List.any_map] at kept
  have matched : granted.any (fun grant => scopeMatches grant scope) = true := by
    simpa [Function.comp_def, Except.toOption, bind, Except.bind, pure, Except.pure] using kept
  obtain ⟨grant, held, within⟩ := List.any_eq_true.mp matched
  exact ⟨grant, held, scopeMatches_trans within covers⟩

/-- The gate lets through who holds the scope it asks for. -/
theorem allowed_of_gate (passes : scopeMiddleware requirement (.token token granted) = none) :
    ∃ required, tryParseScope requirement = some required ∧ Allowed granted required := by
  unfold scopeMiddleware at passes
  dsimp only at passes
  split at passes
  · cases passes
  · rename_i required parsed
    split at passes
    · rename_i found
      exact ⟨required, parsed, by simpa [Allowed] using found⟩
    · cases passes

/-! What a call of the store or of the verifier can give away. -/

/-- What is stored and what is cached goes back to the store of the beginning. -/
structure Held (origin world : World) : Prop where
  rows : ∀ id record, world.records.get id = some record →
    (∃ before, origin.records.get id = some before ∧ before.scopes = record.scopes) ∨
      Delegated origin (grants record)
  cache : ∀ key entry, entryAt world key = some entry →
    Rooted origin entry.value.token.scopes

def fed (origin : World) : AuthOp → Prop
  | .put record => Delegated origin (grants record)
  | .conclude (some record) _ _ _ => Rooted origin (grants record)
  | _ => True

def yields (origin : World) : (op : AuthOp) → op.Answer → Prop
  | .get _, answer =>
    ∀ record, answer = .ok (some record) → Rooted origin (grants record)
  | .beginVerify _ _, answer => ∀ token, answer ≠ .answered (.ok token)
  | .consultCache _ _, answer =>
    ∀ token, answer = some (.ok token) → Rooted origin token.scopes
  | .refuseUnknown _, answer => ∀ token, answer ≠ .ok token
  | .checkTokenLockout _ _, answer => ∀ token, answer ≠ some (.ok token)
  | .conclude _ _ _ _, answer => ∀ token, answer = .ok token → Rooted origin token.scopes
  | _, _ => True

section Steps

variable {origin world : World} {crypto : Crypto} {options : VerifierOptions}

theorem Held.rooted {id : String} (held : Held origin world)
    (known : world.records.get id = some record) : Rooted origin (grants record) := by
  rcases held.rows id record known with ⟨before, stored, same⟩ | delegated
  · refine ⟨id, before, stored, fun required allowed => ?_⟩
    rwa [grants, same]
  · exact delegated.rooted

/-- A verdict of acceptance carries the scopes of its record, and so does what it
leaves in the cache. -/
theorem conclude_grants (record : Option AuthTokenRecord) (hashHex tokenId : String)
    (call : VerifyCall) :
    (∀ token, (world.conclude options record hashHex tokenId call).1 = .ok token →
      ∃ found, record = some found ∧ token.scopes = grants found) ∧
    ∀ key entry, entryAt (world.conclude options record hashHex tokenId call).2 key =
        some entry →
      entryAt world key = some entry ∨
        ∃ found, record = some found ∧ entry.value.token.scopes = grants found := by
  unfold World.conclude
  dsimp only
  split
  · refine ⟨fun token answered => (by cases answered), fun key entry kept => .inl ?_⟩
    simpa [entryAt, World.leave] using kept
  · rename_i found
    split
    · refine ⟨fun token answered => (by cases answered), fun key entry kept => .inl ?_⟩
      simpa [entryAt, World.leave] using kept
    · split
      · refine ⟨fun token answered => (by cases answered), fun key entry kept => .inl ?_⟩
        simpa [entryAt, World.leave] using kept
      · refine ⟨fun token answered => ?_, fun key entry kept => ?_⟩
        · cases answered
          exact ⟨found, rfl, rfl⟩
        · rcases LruCache.set_subset kept with before | ⟨-, value⟩
          · exact .inl before
          · exact .inr ⟨found, rfl, by rw [value]; rfl⟩

theorem handle_yields (op : AuthOp) (held : Held origin world) (needs : fed origin op) :
    yields origin op (handle crypto options op world).1 := by
  cases op with
  | get id =>
    intro record answered
    exact held.rooted (storeCall_ok answered).1.symm
  | beginVerify => exact fun token => beginVerify_refuses
  | consultCache =>
    intro token answered
    obtain ⟨entry, found, same⟩ := consultCache_ok answered
    rw [← same]
    exact held.cache _ _ found
  | refuseUnknown =>
    intro token answered
    cases answered
  | checkTokenLockout => exact fun token => checkTokenLockout_refuses
  | conclude record hashHex tokenId call =>
    intro token answered
    obtain ⟨found, rfl, same⟩ := (conclude_grants ..).1 token answered
    rw [same]
    exact needs
  | _ => trivial

theorem Held.handled (held : Held origin world) (op : AuthOp) (needs : fed origin op) :
    Held origin (handle crypto options op world).2 where
  rows := by
    intro id record known
    have step := @rowStep crypto options world id op
    rw [known] at step
    generalize acted : did op (handle crypto options op world).1 = action at step
    generalize stored : world.records.get id = before at step
    cases step with
    | same same => exact held.rows id record (stored.trans same.symm)
    | put own put =>
      obtain ⟨rfl, -⟩ := called_inj acted
      cases put
      exact .inr needs
    | @revoked earlier _ found stamped =>
      cases stamped
      exact held.rows id earlier (stored.trans found)
    | @used earlier _ found stamped =>
      cases stamped
      exact held.rows id earlier (stored.trans found)
  cache := by
    intro key entry kept
    rcases entryStep op kept with before | ⟨record, tokenId, call, rfl, -⟩
    · exact held.cache key entry before
    · rcases (conclude_grants ..).2 key entry kept with before | ⟨found, same, granted⟩
      · exact held.cache key entry before
      · cases same
        rw [granted]
        exact needs

end Steps

/-! What the programs ask. -/

section Programs

variable {origin : World} {options : VerifierOptions} {deps : TokensRoutesDeps}

/-- The program keeps to the calls it may make. -/
abbrev Within (origin : World) {α : Type} (post : α → Prop) (program : AuthProgram α) :
    Prop :=
  program.abides (fed origin) (yields origin) post

theorem assertPepperStrength_within (pepper : Bytes) :
    Within origin (fun _ => True) (assertPepperStrength pepper) := by
  refine ⟨trivial, fun answer _ => ?_⟩
  change Within origin _ (if SecretStrength.ok answer = true then .done ()
    else .fail (.weakPepper answer))
  split <;> trivial

theorem findTokenId_within (hashHex : String) :
    Within origin (fun _ => True) (findTokenId options hashHex) := by
  unfold findTokenId
  split
  · exact ⟨trivial, fun _ _ => Program.abides_ofExcept fun _ _ => trivial⟩
  · exact ⟨trivial, fun _ _ => Program.abides_ofExcept fun _ _ => trivial⟩

/-- Only what the store or the cache vouches for is accepted. -/
def Vouched (origin : World) (result : VerifyResult) : Prop :=
  ∀ token, result = .ok token → Rooted origin token.scopes

theorem Vouched.refused : Vouched origin (.refused reason retryAfterMs) := by
  intro token same
  cases same

theorem lookUp_within (rawToken : String) (call : VerifyCall) :
    Within origin (Vouched origin) (lookUp options rawToken call) := by
  refine ⟨trivial, fun hashHex _ => ⟨trivial, fun cached vouched => ?_⟩⟩
  cases cached with
  | some result => exact fun token same => vouched token (congrArg some same)
  | none =>
    change Within origin _ (Program.bind (findTokenId options hashHex) _)
    refine Program.abides_bind (Program.abides_mono ?_ (findTokenId_within hashHex))
    rintro (_ | tokenId) -
    · exact ⟨trivial, fun result refuses token same => absurd same (refuses token)⟩
    · refine ⟨trivial, fun locked refuses => ?_⟩
      cases locked with
      | some result =>
        exact fun token same => absurd (congrArg some same) (refuses token)
      | none =>
        refine ⟨trivial, fun answer read => Program.abides_ofExcept fun record found => ?_⟩
        refine ⟨?_, fun result vouched => ?_⟩
        · cases record with
          | none => trivial
          | some record => exact read record found
        · cases result with
          | ok token => exact ⟨trivial, fun _ _ => vouched⟩
          | refused => exact .refused

theorem verify_within (rawToken : String) (ip : Option String) :
    Within origin (Vouched origin) (verify options rawToken ip) := by
  refine Program.abides_bind (Program.abides_mono ?_ (assertPepperStrength_within _))
  refine fun _ _ => ⟨trivial, fun begun refuses => ?_⟩
  cases begun with
  | overloaded => trivial
  | answered result =>
    exact fun token same => absurd (congrArg BeginVerify.answered same) (refuses token)
  | proceeding call =>
    exact Program.abides_catchFail (lookUp_within rawToken call)
      fun _ => ⟨trivial, fun _ _ => trivial⟩

theorem createToken_within {options : CreateTokenOptions}
    (minting : options.idOverride = none)
    (delegated : Delegated origin (options.scopes.filterMap tryParseScope)) :
    Within origin (fun token => Delegated origin (grants token.record))
      (createToken options) := by
  unfold createToken
  split
  · trivial
  · rw [minting]
    change Within origin _ (Program.bind (assertPepperStrength options.pepper) _)
    refine Program.abides_bind (Program.abides_mono ?_ (assertPepperStrength_within _))
    refine fun _ _ => ⟨trivial, fun _ _ => Program.abides_ofExcept fun raw _ => ?_⟩
    refine ⟨trivial, fun hashHex _ => ⟨trivial, fun id _ => ⟨trivial, fun now _ => ?_⟩⟩⟩
    refine Program.abides_ofExcept fun createdAt _ => ?_
    refine Program.abides_ofExcept fun expiresAt _ => ?_
    exact ⟨delegated, fun _ _ => Program.abides_ofExcept fun _ _ => delegated⟩

theorem informing_within {withVerifier : Bool} {hashHex : String}
    {next : Unit → AuthProgram α} (after : Within origin post (next ())) :
    Within origin post (if withVerifier then Program.bind (ask (.invalidate hashHex)) next
      else next ()) := by
  split
  · exact ⟨trivial, fun _ _ => after⟩
  · exact after

theorem revokeToken_within (id : String) (withVerifier : Bool) :
    Within origin (fun _ => True) (revokeToken id withVerifier) := by
  refine ⟨trivial, fun _ _ => Program.abides_ofExcept fun existing _ => ?_⟩
  cases existing with
  | none => trivial
  | some existing =>
    dsimp only
    split
    · trivial
    · refine informing_within ⟨trivial, fun now _ => ?_⟩
      refine Program.abides_ofExcept fun ts _ => ⟨trivial, fun _ _ => ?_⟩
      refine Program.abides_ofExcept fun _ _ => ⟨trivial, fun _ _ => ?_⟩
      exact Program.abides_ofExcept fun _ _ => trivial

/-- The scope a reply of a handler was given for. -/
def Reply.scope : Reply → Option String
  | .created _ => some "tokens:create"
  | .listed _ => some "tokens:list"
  | .revoked => some "tokens:revoke"
  | .tokenNotFound _ => some "tokens:revoke"
  | _ => none

/-- Some token of the beginning holds the scope. -/
def Usable (origin : World) (text : String) : Prop :=
  ∃ required, tryParseScope text = some required ∧
    ∃ id root, origin.records.get id = some root ∧ Allowed (grants root) required

/-- A handler works for tokens of the beginning that may use its route, and what it
makes may do no more than one that may create tokens. -/
structure Entitled (origin : World) (reply : Reply) : Prop where
  caller : ∀ text, reply.scope = some text → Usable origin text
  created : ∀ token, reply = .created token → Delegated origin (grants token.record)

theorem Entitled.refusal {reply : Reply} (refuses : reply.scope = none) :
    Entitled origin reply where
  caller := by
    intro text given
    rw [refuses] at given
    cases given
  created := by
    intro token same
    rw [same] at refuses
    cases refuses

theorem Entitled.served {reply : Reply} (scope : reply.scope = some text)
    (caller : Usable origin text)
    (created : ∀ token, reply = .created token → Delegated origin (grants token.record)) :
    Entitled origin reply where
  caller := by
    intro other same
    cases scope.symm.trans same
    exact caller
  created := created

variable {token : VerifiedToken} {granted : List ParsedScope}

theorem scopeMiddleware_denies
    (answered : scopeMiddleware requirement (.token token granted) = some reply) :
    reply.scope = none := by
  unfold scopeMiddleware at answered
  dsimp only at answered
  split at answered
  · cases answered
    rfl
  · split at answered
    · cases answered
    · cases answered
      rfl

theorem Rooted.caller (rooted : Rooted origin granted)
    (passes : scopeMiddleware requirement (.token token granted) = none) :
    Usable origin requirement := by
  obtain ⟨required, parsed, allowed⟩ := allowed_of_gate passes
  obtain ⟨id, root, known, covers⟩ := rooted
  exact ⟨required, parsed, id, root, known, covers required allowed⟩

theorem parsed_creating : tryParseScope "tokens:create" = some creating := by
  rfl

theorem Rooted.delegated (rooted : Rooted origin granted)
    (passes : scopeMiddleware "tokens:create" (.token token granted) = none)
    (undenied : deniedScopes (.token token granted) scopes = []) :
    Delegated origin (scopes.filterMap tryParseScope) := by
  obtain ⟨required, parsed, allowed⟩ := allowed_of_gate passes
  cases parsed_creating.symm.trans parsed
  obtain ⟨id, root, known, covers⟩ := rooted
  exact ⟨id, root, known, covers _ allowed, fun required asked =>
    covers required (allowed_of_undenied undenied asked)⟩

theorem postToken_within (rooted : Rooted origin granted)
    (passes : scopeMiddleware "tokens:create" (.token token granted) = none)
    (body : RequestBody) :
    Within origin (Entitled origin) (postToken deps (.token token granted) body) := by
  cases body with
  | invalidJson => exact .refusal rfl
  | misshapen => exact .refusal rfl
  | create body =>
    unfold postToken
    dsimp only
    split
    · exact .refusal rfl
    · split
      · exact .refusal rfl
      · split
        · exact .refusal rfl
        · split
          · exact .refusal rfl
          · rename_i undenied
            have made : Within origin _
                (createToken (body.options deps (body.env.getD deps.defaultEnv))) :=
              createToken_within rfl (rooted.delegated passes undenied)
            refine Program.abides_bind (Program.abides_mono ?_ made)
            intro created delegated
            refine .served rfl (rooted.caller passes) fun token same => ?_
            cases same
            exact delegated

theorem createTokensRoutes_within (rooted : Rooted origin granted) (route : TokensRoute) :
    Within origin (Entitled origin)
      (createTokensRoutes deps (.token token granted) route) := by
  unfold createTokensRoutes
  split
  · rename_i answered
    exact .refusal (scopeMiddleware_denies answered)
  · rename_i passes
    cases route with
    | list =>
      refine ⟨trivial, fun answer _ => ?_⟩
      cases answer with
      | error => trivial
      | ok => exact .served rfl (rooted.caller passes) fun _ => Reply.noConfusion
    | create body => exact postToken_within rooted passes body
    | revoke id =>
      refine Program.abides_bind (Program.abides_mono ?_ (revokeToken_within id _))
      rintro (_ | updated) -
      · exact .served rfl (rooted.caller passes) fun _ => Reply.noConfusion
      · exact .served rfl (rooted.caller passes) fun _ => Reply.noConfusion

theorem serve_within (arrival : Arrival) :
    Within origin (Entitled origin) (serve options deps arrival) := by
  rcases arrival with ⟨_ | rawToken, ip, route⟩ | ms
  · exact .refusal rfl
  · refine Program.abides_bind (Program.abides_mono ?_ (verify_within rawToken ip))
    intro result vouched
    cases result with
    | ok token => exact createTokensRoutes_within (vouched token rfl) route
    | refused => exact .refusal rfl
  · exact ⟨trivial, fun _ _ => .refusal rfl⟩

end Programs

/-- A row that was there has the scopes it had, and any other may do no more than
one that was there and that may create tokens. -/
theorem minting_narrows {ι : Type} [DecidableEq ι] (crypto : Crypto)
    (options : VerifierOptions) (deps : TokensRoutesDeps) (arrivals : ι → Arrival)
    (schedule : List ι) {origin : World} (fresh : origin.verifier = .new options) :
    let pool := (Pool.start (fun process => serve options deps (arrivals process))
      origin).play (handle crypto options) schedule
    (∀ id record, pool.store.records.get id = some record →
      (∃ before, origin.records.get id = some before ∧ before.scopes = record.scopes) ∨
        Delegated origin (grants record)) ∧
    ∀ process reply, pool.rest process = .done reply → Entitled origin reply := by
  have begun : (Pool.start (fun process => serve options deps (arrivals process))
      origin).Abiding (Held origin) (fun _ => fed origin) (yields origin)
        (fun _ => Entitled origin) := by
    refine ⟨⟨?_, ?_⟩, fun process => serve_within (arrivals process)⟩
    · exact fun id record known => .inl ⟨record, known, rfl⟩
    · intro key entry kept
      change origin.verifier.cache.map.get key = some entry at kept
      rw [fresh] at kept
      cases kept
  have vouched : ∀ (_ : ι) op world, Held origin world → fed origin op →
      yields origin op (handle crypto options op world).1 ∧
        Held origin (handle crypto options op world).2 :=
    fun _ op _ held needs => ⟨handle_yields op held needs, held.handled op needs⟩
  have ended := begun.play vouched schedule
  refine ⟨ended.invariant.rows, fun process reply done => ?_⟩
  have own := ended.rest process
  rw [done] at own
  exact own

namespace MintingSample

open RevocationSample

def creator : World :=
  { RevocationSample.world with
    records := OrderedMap.empty.set "t"
      { row "t" raw with scopes := ["tokens:create", "agents:*"] } }

def deps : TokensRoutesDeps where
  pepper := options.pepper
  defaultEnv := "live"
  allowedEnvs := tokenEnvironments
  withVerifier := true

def arrivals (_ : Unit) : Arrival :=
  .request (some raw) none (.create (.create ⟨none, ["agents:read:a-1"], none, none⟩))

def pool : Pool AuthIface AuthAuditEvent AuthError Reply World Unit :=
  (Pool.start (fun process => serve options deps (arrivals process)) creator).play
    (handle crypto options) (List.replicate 24 ())

def made : AuthProgram Reply → Option CreatedToken
  | .done (.created token) => some token
  | _ => none

theorem of_made {rest : AuthProgram Reply} (same : made rest = some token) :
    rest = .done (.created token) := by
  unfold made at same
  split at same
  · cases same
    rfl
  · cases same

theorem pool_made : ∃ token, MintingSample.pool.rest () = .done (.created token) := by
  have returns : (made (MintingSample.pool.rest ())).isSome = true := by decide +kernel
  obtain ⟨token, found⟩ := Option.isSome_iff_exists.mp returns
  exact ⟨token, of_made found⟩

end MintingSample

open RevocationSample MintingSample in
theorem narrower_token_made : ∃ token, MintingSample.pool.rest () = .done (.created token) ∧
    Delegated creator (grants token.record) := by
  obtain ⟨token, done⟩ := pool_made
  refine ⟨token, done, ?_⟩
  rw [MintingSample.pool] at done
  exact ((minting_narrows crypto options deps arrivals (List.replicate 24 ()) rfl).2 ()
    _ done).created token rfl

end Graphorin.Auth
