import Graphorin.Auth.Service

namespace Graphorin.Auth

open Graphorin.Js
open Graphorin.Lib (Program)

/-! What each call of a task rests on. -/

def Located (hashHex tokenId : String) (past : List AuthAction) : Prop :=
  ∃ record, timingSafeEqualHex record.hashHex hashHex = true ∧ record.id = tokenId ∧
    (did (.getByHash hashHex) (.ok (some record)) ∈ past ∨
      ∃ records, record ∈ records ∧ did .list (.ok records) ∈ past)

def stand (current : Option VerifyCall) : AuthAction → Option VerifyCall
  | .called (.beginVerify _ _) (.proceeding call) => some call
  | .called (.consultCache _ _) (some _) => none
  | .called (.refuseUnknown _) _ => none
  | .called (.checkTokenLockout _ _) (some _) => none
  | .called (.conclude _ _ _ _) _ => none
  | .called (.abandon _) _ => none
  | _ => current

def standing (past : List AuthAction) : Option VerifyCall := past.foldl stand none

@[simp] theorem standing_append (past more : List AuthAction) :
    standing (past ++ more) = more.foldl stand (standing past) :=
  List.foldl_append

def Task.asks (task : Task) (past : List AuthAction) : AuthOp → Prop
  | .put record =>
    did .randomUUID record.id ∈ past ∧ record.revokedAt = none ∧
      (∀ other answer, did (.put other) answer ∉ past) ∧
      ∃ pepper raw, did (.hmac pepper raw) record.hashHex ∈ past
  | .revoke id _ =>
    task.target = some id ∧
      (∃ record, did (.get id) (.ok (some record)) ∈ past) ∧
      ∀ ts answer, did (.revoke id ts) answer ∉ past
  | .invalidate hashHex =>
    ∃ id record, task.target = some id ∧
      did (.get id) (.ok (some record)) ∈ past ∧ hashHex = record.hashHex
  | .beginVerify _ _ => standing past = none
  | .consultCache _ call => standing past = some call
  | .refuseUnknown call => standing past = some call
  | .checkTokenLockout _ call => standing past = some call
  | .conclude record hashHex tokenId call =>
    did (.get tokenId) (.ok record) ∈ past ∧
      (∃ pepper raw, did (.hmac pepper raw) hashHex ∈ past) ∧
      Located hashHex tokenId past ∧ standing past = some call
  | .abandon call => standing past = some call
  | _ => True

def acceptance : AuthAction → Option VerifiedToken
  | .called (.beginVerify _ _) (.answered (.ok token)) => some token
  | .called (.consultCache _ _) (some (.ok token)) => some token
  | .called (.refuseUnknown _) (.ok token) => some token
  | .called (.checkTokenLockout _ _) (some (.ok token)) => some token
  | .called (.conclude _ _ _ _) (.ok token) => some token
  | _ => none

def Carried (id : String) (past : List AuthAction) : Prop :=
  (∃ ts, did (.revoke id ts) (.ok ()) ∈ past) ∧
    ∃ hashHex, did (.invalidate hashHex) () ∈ past

def FoundRevoked (id : String) (past : List AuthAction) : Prop :=
  ∃ record, past.head? = some (did (.get id) (.ok (some record))) ∧
    record.revokedAt.isSome = true

def Task.ends (task : Task) : Except AuthError Outcome → List AuthAction → Prop
  | .ok (.verified (.ok token)), past =>
    ∃ action ∈ past, acceptance action = some token
  | .ok (.revoked (some _)), past =>
    ∃ id, task = .revoke id ∧ (FoundRevoked id past ∨ Carried id past)
  | .ok (.rotated _), past => ∃ id, task.target = some id ∧ Carried id past
  | _, _ => True

section Heeds

variable {asks : List AuthAction → AuthOp → Prop} {past : List AuthAction}

variable {α β : Type}

theorem heeds_awaiting {answer : StoreAnswer α} {f : α → AuthProgram β}
    {post : Except AuthError β → List AuthAction → Prop}
    (ok : ∀ value, answer = .ok value → (f value).heeds asks post past)
    (rejected : ∀ error, answer = .error error → post (.error error) past) :
    ((awaiting answer).bind f).heeds asks post past := by
  cases answer with
  | ok value => exact ok value rfl
  | error error => exact rejected error rfl

theorem heeds_ofExcept {answer : Except AuthError α} {f : α → AuthProgram β}
    {post : Except AuthError β → List AuthAction → Prop}
    (ok : ∀ value, answer = .ok value → (f value).heeds asks post past)
    (rejected : ∀ error, post (.error error) past) :
    ((Program.ofExcept answer : AuthProgram α).bind f).heeds asks post past := by
  cases answer with
  | ok value => exact ok value rfl
  | error error => exact rejected error

end Heeds

variable {past : List AuthAction}

theorem assertPepperStrength_heeds (asked : asks past (.assess pepper))
    (strong : ∀ answer, post (.ok ()) (past ++ [did (.assess pepper) answer]))
    (weak : ∀ answer error, post (.error error) (past ++ [did (.assess pepper) answer])) :
    (assertPepperStrength pepper).heeds asks post past := by
  unfold assertPepperStrength
  refine ⟨asked, fun answer => ?_⟩
  change Program.heeds asks post (if SecretStrength.ok answer = true then .done ()
    else .fail (.weakPepper answer)) _
  split
  · exact strong answer
  · exact weak answer _

variable {task : Task}

variable (options : VerifierOptions)

theorem findTokenId_heeds (hashHex : String)
    {post : Except AuthError (Option String) → List AuthAction → Prop}
    (found : ∀ result later, past ⊆ later → standing later = standing past →
      (∀ tokenId, result = some tokenId → Located hashHex tokenId later) → post (.ok result) later)
    (failed : ∀ error later, standing later = standing past → post (.error error) later) :
    (findTokenId options hashHex).heeds task.asks post past := by
  unfold findTokenId
  split
  · refine ⟨trivial, fun answer => heeds_awaiting ?_ fun error _ =>
      failed _ _ (by simp [stand])⟩
    rintro record rfl
    refine found _ _ (List.subset_append_left _ _) (by simp [stand]) ?_
    intro tokenId same
    rw [Option.bind_eq_some_iff] at same
    obtain ⟨row, rfl, same⟩ := same
    split at same
    · rename_i equal
      exact ⟨row, equal, Option.some.inj same, .inl (by simp)⟩
    · cases same
  · refine ⟨trivial, fun answer => heeds_awaiting ?_ fun error _ =>
      failed _ _ (by simp [stand])⟩
    rintro records rfl
    refine found _ _ (List.subset_append_left _ _) (by simp [stand]) ?_
    intro tokenId same
    obtain ⟨row, known, same⟩ := Option.map_eq_some_iff.mp same
    exact ⟨row, by simpa using List.find?_some known, same,
      .inr ⟨records, List.mem_of_find?_eq_some known, by simp⟩⟩

theorem Located.mono (located : Located hashHex tokenId past) (grows : past ⊆ later) :
    Located hashHex tokenId later := by
  obtain ⟨record, equal, own, here | ⟨records, listed, here⟩⟩ := located
  · exact ⟨record, equal, own, .inl (grows here)⟩
  · exact ⟨record, equal, own, .inr ⟨records, listed, grows here⟩⟩

/-- What a call of `verify` ends in. -/
def verdict : Except AuthError VerifyResult → List AuthAction → Prop
  | .ok (.ok token), past => ∃ action ∈ past, acceptance action = some token
  | _, _ => True

def verdictOf (call : VerifyCall) :
    Except AuthError VerifyResult → List AuthAction → Prop
  | .ok result, past => verdict (.ok result) past
  | .error _, past => standing past = some call

theorem verdict_of_last
    (accepts : ∀ token, result = .ok token → acceptance action = some token) :
    verdict (.ok result) (past ++ [action]) := by
  cases result with
  | ok token => exact ⟨action, by simp, accepts token rfl⟩
  | refused => trivial

theorem verdict_mono (grows : past ⊆ later) (holds : verdict result past) :
    verdict result later := by
  rcases result with error | token | _
  · trivial
  · obtain ⟨action, listed, accepts⟩ := holds
    exact ⟨action, grows listed, accepts⟩
  · trivial

theorem lookUp_heeds (rawToken : String) (call : VerifyCall)
    (stands : standing past = some call) :
    (lookUp options rawToken call).heeds task.asks (verdictOf call) past := by
  unfold lookUp
  refine ⟨trivial, fun hashHex => ⟨by simp [Task.asks, stand, stands], fun cached => ?_⟩⟩
  cases cached with
  | some =>
    refine verdict_of_last ?_
    rintro token rfl
    rfl
  | none =>
    change ((findTokenId options hashHex).bind _).heeds _ _ _
    refine Program.heeds_bind.mpr (findTokenId_heeds options hashHex ?_ ?_)
    · intro tokenId later grows kept located
      have stands' : standing later = some call := by simp [kept, stand, stands]
      cases tokenId with
      | none =>
        refine ⟨stands', fun result => verdict_of_last ?_⟩
        rintro token rfl
        rfl
      | some tokenId =>
        refine ⟨stands', fun answer => ?_⟩
        cases answer with
        | some =>
          refine verdict_mono (List.subset_append_left _ _) (verdict_of_last ?_)
          rintro token rfl
          rfl
        | none =>
          refine ⟨trivial, fun answer => heeds_awaiting ?_ fun _ _ => ?_⟩
          · rintro record rfl
            refine ⟨⟨by simp, ⟨options.pepper, rawToken, ?_⟩, ?_, ?_⟩,
              fun result => ?_⟩
            · have listed := grows
                (a := did (.hmac options.pepper rawToken) hashHex) (by simp)
              simp [listed]
            · exact (located tokenId rfl).mono fun action listed => by
                simp [listed]
            · simp [stand, stands']
            · cases result with
              | ok token =>
                exact ⟨trivial, fun _ =>
                  ⟨did (.conclude record hashHex tokenId call) (.ok token),
                    by simp, rfl⟩⟩
              | refused => trivial
          · simp [verdictOf, stand, stands']
    · intro error later kept
      simp [Program.heeding, verdictOf, kept, stand, stands]

theorem verify_heeds (rawToken : String) (ip : Option String) :
    (verify options rawToken ip).heeds task.asks verdict [] := by
  unfold verify
  refine Program.heeds_bind.mpr (assertPepperStrength_heeds trivial ?_ fun _ _ => trivial)
  refine fun answer => ⟨by simp [Task.asks, standing, stand], fun begun => ?_⟩
  cases begun with
  | overloaded => trivial
  | answered =>
    refine verdict_of_last ?_
    rintro token rfl
    rfl
  | proceeding call =>
    change ((lookUp options rawToken call).catchFail _).heeds _ _ _
    refine Program.heeds_catchFail.mpr (Program.heeds_mono ?_
      (lookUp_heeds options rawToken call (by simp [standing, stand])))
    intro result past holds
    cases result with
    | ok => exact holds
    | error => exact ⟨holds, fun _ => trivial⟩

theorem createToken_heeds (options : CreateTokenOptions)
    (minting : options.idOverride = none)
    (first : ∀ other answer, did (.put other) answer ∉ past)
    {post : Except AuthError CreatedToken → List AuthAction → Prop}
    (created : ∀ token later, past ⊆ later → post (.ok token) later)
    (failed : ∀ error later, post (.error error) later) :
    (createToken options).heeds task.asks post past := by
  unfold createToken
  split
  · exact failed _ _
  · refine Program.heeds_bind.mpr
      (assertPepperStrength_heeds trivial ?_ fun _ _ => failed _ _)
    refine fun strength => ⟨trivial, fun entropyBytes => ?_⟩
    refine heeds_ofExcept (fun raw _ => ?_) fun _ => failed _ _
    refine ⟨trivial, fun hashHex => ?_⟩
    rw [minting]
    refine ⟨trivial, fun id => ⟨trivial, fun now => ?_⟩⟩
    refine heeds_ofExcept (fun createdAt _ => ?_) fun _ => failed _ _
    refine heeds_ofExcept (fun expiresAt _ => ?_) fun _ => failed _ _
    refine ⟨⟨by simp, rfl, ?_, options.pepper, raw, by simp⟩, fun answer => ?_⟩
    · intro other answer
      simp [first other answer]
    · refine heeds_awaiting (fun _ _ => ?_) fun _ _ => failed _ _
      exact created _ _ fun action listed => by simp [listed]

def withdrawal (id : String) :
    Except AuthError (Option TokenMetadata) → List AuthAction → Prop
  | .ok (some _), past => FoundRevoked id past ∨ Carried id past
  | _, _ => True

theorem revokeToken_heeds (id : String) :
    (revokeToken id true).heeds (Task.revoke id).asks (withdrawal id) [] := by
  refine ⟨trivial, fun answer => heeds_awaiting ?_ fun _ _ => trivial⟩
  rintro (_ | existing) rfl
  · trivial
  · change Program.heeds _ _ (if existing.revokedAt.isSome = true then _ else _) _
    split
    · rename_i revoked
      exact .inl ⟨existing, rfl, revoked⟩
    · refine ⟨⟨id, existing, rfl, by simp, rfl⟩, fun _ => ⟨trivial, fun now => ?_⟩⟩
      change Program.heeds _ _ ((Program.ofExcept
        (toISOString (some (Int.ofNat now)))).bind _) _
      refine heeds_ofExcept (fun ts _ => ?_) fun _ => trivial
      refine ⟨⟨rfl, ⟨existing, by simp⟩, by simp⟩, fun answer => ?_⟩
      refine heeds_awaiting ?_ fun _ _ => trivial
      rintro ⟨⟩ rfl
      refine ⟨trivial, fun answer => heeds_awaiting ?_ fun _ _ => trivial⟩
      rintro (_ | updated) rfl
      · trivial
      · exact .inr ⟨⟨ts, by simp⟩, existing.hashHex, by simp⟩

theorem rotateToken_heeds (options : RotateTokenOptions) :
    (rotateToken { options with withVerifier := true }).heeds
      (Task.rotate options).asks
      (fun result past => match result with
        | .ok _ => Carried options.id past
        | .error _ => True) [] := by
  refine ⟨trivial, fun answer => heeds_awaiting ?_ fun _ _ => trivial⟩
  rintro (_ | existing) rfl
  · trivial
  · refine ⟨trivial, fun now => heeds_ofExcept (fun ts _ => ?_) fun _ => trivial⟩
    refine ⟨⟨rfl, ⟨existing, by simp⟩, by simp⟩, fun answer => ?_⟩
    refine heeds_awaiting ?_ fun _ _ => trivial
    rintro ⟨⟩ rfl
    refine ⟨⟨options.id, existing, rfl, by simp, rfl⟩, fun _ => ?_⟩
    change Program.heeds _ _ ((createToken _).bind _) _
    refine Program.heeds_bind.mpr (createToken_heeds _ rfl (by simp) ?_
      fun _ _ => trivial)
    intro next later grows
    refine ⟨trivial, fun answer => heeds_awaiting ?_ fun _ _ => trivial⟩
    rintro refreshed rfl
    refine ⟨trivial, fun later => ⟨⟨ts, ?_⟩, existing.hashHex, ?_⟩⟩
    · have listed := grows (a := did (.revoke options.id ts) (.ok ())) (by simp)
      simp [listed]
    · have listed := grows (a := did (.invalidate existing.hashHex) ()) (by simp)
      simp [listed]

theorem Task.heeds (task : Task) :
    (task.program options).heeds task.asks task.ends [] := by
  cases task with
  | verify rawToken ip =>
    refine Program.heeds_bind.mpr
      (Program.heeds_mono ?_ (verify_heeds options rawToken ip))
    intro result past holds
    rcases result with error | token | _
    · trivial
    · exact holds
    · trivial
  | revoke id =>
    refine Program.heeds_bind.mpr
      (Program.heeds_mono ?_ (revokeToken_heeds id))
    intro result past holds
    rcases result with error | _ | token
    · trivial
    · trivial
    · exact ⟨id, rfl, holds⟩
  | rotate rotation =>
    refine Program.heeds_bind.mpr
      (Program.heeds_mono ?_ (rotateToken_heeds rotation))
    intro result past holds
    cases result with
    | ok => exact ⟨rotation.id, rfl, holds⟩
    | error => trivial
  | elapse => exact ⟨trivial, fun _ => trivial⟩
  | finishInvalidation => exact ⟨trivial, fun _ => trivial⟩

end Graphorin.Auth
