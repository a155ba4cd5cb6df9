import Graphorin.Server.Idempotency

namespace Graphorin.Server

open Graphorin.Lib

/-! A key executes once in the lifetime of its record. -/

variable {ρ : Type} (config : IdempotencyConfig)

namespace IdempotencyPhase

def handled : IdempotencyPhase ρ → Bool
  | .executing => true
  | .storing _ => true
  | .stored _ => true
  | .unstored => true
  | _ => false

def consulting : IdempotencyPhase ρ → Bool
  | .got _ => true
  | .deleting _ => true
  | .deleted => true
  | _ => false

def found : IdempotencyPhase ρ → Option (IdempotencyRecord ρ)
  | .got found => found
  | _ => none

def pendingPut : IdempotencyPhase ρ → Option (IdempotencyRecord ρ)
  | .storing record => some record
  | _ => none

end IdempotencyPhase

/-- What one step may do.  A request reaches the handler only if no other request
with its key is there and every record of the key has expired; a replay goes to the
principal and the fingerprint of its record; and a conflict is answered only over a
record that has not expired. -/
structure Lawful (before after : IdempotencyWorld ρ) : Prop where
  once : ∀ {id : Nat} {request request' : KeyedRequest ρ},
    before.requests[id]? = some request → after.requests[id]? = some request' →
    request.phase.handled = false → request'.phase.handled = true →
      (∀ another ∈ before.requests, another.key = request.key →
        another.phase.handled = false) ∧
      ∀ record ∈ before.kept, record.key = request.key →
        record.expiresAt ≤ before.clock
  replayed : ∀ {id : Nat} {request request' : KeyedRequest ρ}
      {record : IdempotencyRecord ρ},
    before.requests[id]? = some request → after.requests[id]? = some request' →
    request'.phase ≠ request.phase → request'.phase = .answered (.replayed record) →
      record ∈ before.kept ∧ record.key = request.key ∧
        record.scope = some request.principal ∧
        some record.requestHash = request.fingerprint ∧
        before.clock < record.expiresAt
  refused : ∀ {id : Nat} {request request' : KeyedRequest ρ}
      {refusal : IdempotencyRefusal},
    before.requests[id]? = some request → after.requests[id]? = some request' →
    request'.phase ≠ request.phase → request'.phase = .answered (.refused refusal) →
    refusal = .otherPrincipal ∨ refusal = .otherBody →
      ∃ record ∈ before.kept, record.key = request.key ∧
        before.clock < record.expiresAt

namespace IdempotencyWorld

/-- No record of the key is alive: it was never stored, or what was has expired. -/
def Spent (world : IdempotencyWorld ρ) (key : String) : Prop :=
  ∀ record ∈ world.kept, record.key = key → record.expiresAt ≤ world.clock

/-- Where a request with a spent key goes, whether or not there is an expired record: the
record is deleted, and like without one all that is left is the in-flight check. -/
structure Onward (world : IdempotencyWorld ρ) (move : Move ρ) : Prop where
  looked : ∀ {id : Nat} {request : KeyedRequest ρ}, move = .read id →
    world.requests[id]? = some request → request.phase = .arrived →
    request.fingerprint ≠ none → world.Spent request.key →
      ∃ next, (world.step config move).requests[id]? = some { request with phase := next } ∧
        (next = .getting ∨ ∃ record, next = .deleting record)
  answered : ∀ {id : Nat} {request : KeyedRequest ρ} {record : IdempotencyRecord ρ},
    move = .resumed id → world.requests[id]? = some request →
    request.phase = .got (some record) → world.Spent request.key →
      (world.step config move).requests[id]? =
        some { request with phase := .deleting record }
  deleted : ∀ {id : Nat} {request : KeyedRequest ρ} {record : IdempotencyRecord ρ},
    move = .served id false → world.requests[id]? = some request →
    request.phase = .deleting record →
      (world.step config move).requests[id]? = some { request with phase := .deleted } ∧
        (world.step config move).store.get request.key = none
  checked : ∀ {id : Nat} {request : KeyedRequest ρ}, move = .resumed id →
    world.requests[id]? = some request →
    request.phase = .got none ∨ request.phase = .deleted →
      (world.step config move).requests[id]? = some { request with
        phase := if request.key ∈ world.inFlight then .answered (.refused .inFlight)
          else .executing }

/-- An expired record that is found is of the same principal and the same body. -/
def Agrees (clock : Int) (request : KeyedRequest ρ) (record : IdempotencyRecord ρ) :
    Prop :=
  record.expiresAt ≤ clock →
    (record.scope = none ∨ record.scope = some request.principal) ∧
      (config.checkBodyFingerprint = true →
        some record.requestHash = request.fingerprint)

/-- The conditions on a step: expired records that are found agree with the request;
the read cache has an expired record only while the store has no other one; and no
response is stored while another request with its key is between the store and the
in-flight check. -/
def Admits (world : IdempotencyWorld ρ) : Move ρ → Prop
  | .read id =>
    ∀ request ∈ world.requests[id]?, ∀ entry ∈ world.lru.map.get request.key,
      young world.clock entry = true →
        Agrees config world.clock request entry.record ∧
          (entry.record.expiresAt ≤ world.clock →
            world.store.get request.key = none ∨
              world.store.get request.key = some entry.record)
  | .served id fails =>
    fails = false → ∀ request ∈ world.requests[id]?,
      ∀ _record ∈ request.phase.pendingPut, ∀ another ∈ world.requests,
        another.key = request.key → another.phase.consulting = false
  | .resumed id =>
    ∀ request ∈ world.requests[id]?, ∀ record ∈ request.phase.found,
      Agrees config world.clock request record
  | _ => True

def Follows (world : IdempotencyWorld ρ) : List (Move ρ) → Prop
  | [] => True
  | first :: rest => world.Admits config first ∧ (world.step config first).Follows rest

instance (clock : Int) (request : KeyedRequest ρ) (record : IdempotencyRecord ρ) :
    Decidable (Agrees config clock request record) :=
  inferInstanceAs (Decidable (record.expiresAt ≤ clock →
    (record.scope = none ∨ record.scope = some request.principal) ∧
      (config.checkBodyFingerprint = true →
        some record.requestHash = request.fingerprint)))

instance [DecidableEq ρ] (world : IdempotencyWorld ρ) : (move : Move ρ) →
    Decidable (world.Admits config move)
  | .read id => inferInstanceAs (Decidable
      (∀ request ∈ world.requests[id]?, ∀ entry ∈ world.lru.map.get request.key,
        young world.clock entry = true →
          Agrees config world.clock request entry.record ∧
            (entry.record.expiresAt ≤ world.clock →
              world.store.get request.key = none ∨
                world.store.get request.key = some entry.record)))
  | .served id fails => inferInstanceAs (Decidable
      (fails = false → ∀ request ∈ world.requests[id]?,
        ∀ _record ∈ request.phase.pendingPut, ∀ another ∈ world.requests,
          another.key = request.key → another.phase.consulting = false))
  | .resumed id => inferInstanceAs (Decidable
      (∀ request ∈ world.requests[id]?, ∀ record ∈ request.phase.found,
        Agrees config world.clock request record))
  | .arrived _ => isTrue trivial
  | .responded _ _ => isTrue trivial
  | .swept => isTrue trivial
  | .elapsed _ => isTrue trivial

instance followsDecidable [DecidableEq ρ] : (world : IdempotencyWorld ρ) →
    (moves : List (Move ρ)) → Decidable (world.Follows config moves)
  | _, [] => isTrue trivial
  | world, first :: rest =>
    have := followsDecidable (world.step config first) rest
    inferInstanceAs (Decidable
      (world.Admits config first ∧ (world.step config first).Follows config rest))

def Reads (world : IdempotencyWorld ρ) (request : KeyedRequest ρ) : Prop :=
  match request.phase with
  | .got found =>
    world.store.get request.key = none ∨ world.store.get request.key = found
  | .deleting record =>
    record.expiresAt ≤ world.clock ∧
      (world.store.get request.key = none ∨
        world.store.get request.key = some record)
  | .deleted => world.store.get request.key = none
  | .storing record =>
    record.key = request.key ∧ record.scope = some request.principal
  | .stored record => record.key = request.key ∧ record ∈ world.kept
  | _ => True

def Alone (world : IdempotencyWorld ρ) (request : KeyedRequest ρ) : Prop :=
  match request.phase with
  | .executing => ∀ record ∈ world.kept, record.key = request.key →
      record.expiresAt ≤ world.clock
  | .storing _ => ∀ record ∈ world.kept, record.key = request.key →
      record.expiresAt ≤ world.clock
  | _ => True

structure Sound (world : IdempotencyWorld ρ) : Prop where
  keyed : ∀ {key record}, world.store.get key = some record →
    record.key = key ∧ record ∈ world.kept
  cached : ∀ {key entry}, world.lru.map.get key = some entry →
    entry.record.key = key ∧ entry.record ∈ world.kept
  seen : ∀ request ∈ world.requests, ∀ record ∈ request.phase.found,
    record.key = request.key ∧ record ∈ world.kept
  bound : ∀ record ∈ world.kept, record.scope ≠ none
  /-- A record that is alive is still in the store. -/
  alive : ∀ record ∈ world.kept, world.clock < record.expiresAt →
    world.store.get record.key = some record
  busy : ∀ key, key ∈ world.inFlight ↔
    ∃ request ∈ world.requests, request.key = key ∧ request.phase.handled = true
  sole : ∀ {id other : Nat} {request another : KeyedRequest ρ},
    world.requests[id]? = some request → world.requests[other]? = some another →
    request.key = another.key → request.phase.handled = true →
    another.phase.handled = true → id = other
  reads : ∀ request ∈ world.requests, world.Reads request
  alone : ∀ request ∈ world.requests, world.Alone request

def run (world : IdempotencyWorld ρ) (moves : List (Move ρ)) : IdempotencyWorld ρ :=
  moves.foldl (step config) world

variable {world : IdempotencyWorld ρ}

variable {requests : List (KeyedRequest ρ)} {id : Nat} {phase : IdempotencyPhase ρ}

theorem get_changed
    (there : (requests.modify id fun request => { request with phase := phase })[other]? =
      some changed) :
    (other ≠ id ∧ requests[other]? = some changed) ∨
      (other = id ∧ ∃ request, requests[id]? = some request ∧
        changed = { request with phase := phase }) := by
  rw [List.getElem?_modify] at there
  cases before : requests[other]? with
  | none =>
    rw [before] at there
    cases there
  | some request =>
    rw [before] at there
    simp only [Option.map_eq_map, Option.map_some, Option.some.injEq] at there
    by_cases same : id = other
    · subst same
      rw [if_pos rfl] at there
      exact .inr ⟨rfl, request, before, there.symm⟩
    · rw [if_neg same] at there
      exact .inl ⟨Ne.symm same, congrArg some there⟩

theorem mem_changed
    (member : changed ∈ requests.modify id fun request => { request with phase := phase }) :
    (∃ other, other ≠ id ∧ requests[other]? = some changed) ∨
      ∃ request, requests[id]? = some request ∧
        changed = { request with phase := phase } := by
  obtain ⟨other, there⟩ := List.mem_iff_getElem?.mp member
  rcases get_changed there with ⟨apart, same⟩ | ⟨-, changed'⟩
  · exact .inl ⟨other, apart, same⟩
  · exact .inr changed'

variable {request : KeyedRequest ρ}

theorem changed_self (here : requests[id]? = some request) (phase : IdempotencyPhase ρ) :
    (requests.modify id fun request => { request with phase := phase })[id]? =
      some { request with phase := phase } := by
  rw [List.getElem?_modify, here]
  simp

theorem changed_other (apart : other ≠ id) (phase : IdempotencyPhase ρ) :
    (requests.modify id fun request => { request with phase := phase })[other]? =
      requests[other]? := by
  rw [List.getElem?_modify]
  simp [Ne.symm apart]

variable {world' : IdempotencyWorld ρ}

theorem Sound.change (sound : world.Sound) (here : world.requests[id]? = some request)
    (requests : world'.requests =
      world.requests.modify id fun request => { request with phase := phase })
    (keyed : ∀ {key record}, world'.store.get key = some record → record.key = key ∧ record ∈
      world'.kept)
    (cached : ∀ {key entry}, world'.lru.map.get key = some entry → entry.record.key = key ∧
      entry.record ∈ world'.kept)
    (seen : ∀ record ∈ phase.found, record.key = request.key ∧ record ∈ world'.kept)
    (kept : ∀ record ∈ world.kept, record ∈ world'.kept)
    (bound : ∀ record ∈ world'.kept, record.scope ≠ none)
    (alive : ∀ record ∈ world'.kept, world'.clock < record.expiresAt →
      world'.store.get record.key = some record)
    (busy : ∀ key, key ∈ world'.inFlight ↔ (key = request.key ∧ phase.handled = true) ∨
      (key ∈ world.inFlight ∧ (key = request.key → request.phase.handled = false)))
    (free : phase.handled = true → request.phase.handled = false → request.key ∉ world.inFlight)
    (own : world'.Reads { request with phase := phase } ∧
      world'.Alone { request with phase := phase })
    (others : ∀ {other another}, other ≠ id → world.requests[other]? = some another →
      world'.Reads another ∧ world'.Alone another)
    : world'.Sound := by
  have both : ∀ another ∈ world'.requests,
      world'.Reads another ∧ world'.Alone another := by
    intro another member
    rw [requests] at member
    rcases mem_changed member with ⟨other, apart, there⟩ | ⟨request', there, rfl⟩
    · exact others apart there
    · rw [here] at there
      cases there
      exact own
  refine ⟨keyed, cached, ?_, bound, alive, ?_, ?_, fun another member =>
    (both another member).1, fun another member => (both another member).2⟩
  · intro another member record found
    rw [requests] at member
    rcases mem_changed member with ⟨other, -, there⟩ | ⟨request', there, rfl⟩
    · obtain ⟨key, known⟩ := sound.seen another (List.mem_of_getElem? there) record found
      exact ⟨key, kept record known⟩
    · rw [here] at there
      cases there
      exact seen record found
  · intro key
    rw [busy, requests]
    constructor
    · rintro (⟨rfl, handled⟩ | ⟨flying, idle⟩)
      · exact ⟨_, List.mem_of_getElem? (changed_self here phase), rfl, handled⟩
      · obtain ⟨another, member, same, handled⟩ := (sound.busy key).mp flying
        obtain ⟨other, there⟩ := List.mem_iff_getElem?.mp member
        have apart : other ≠ id := by
          rintro rfl
          rw [here] at there
          cases there
          rw [idle same.symm] at handled
          cases handled
        exact ⟨another, List.mem_of_getElem? ((changed_other apart phase).trans there),
          same, handled⟩
    · rintro ⟨another, member, same, handled⟩
      rcases mem_changed member with ⟨other, apart, there⟩ | ⟨request', there, rfl⟩
      · refine .inr ⟨(sound.busy key).mpr
          ⟨another, List.mem_of_getElem? there, same, handled⟩, ?_⟩
        intro own'
        by_contra busy'
        exact apart (sound.sole there here (same.trans own') handled
          (Bool.not_eq_false _ ▸ busy'))
      · rw [here] at there
        cases there
        exact .inl ⟨same.symm, handled⟩
  · have mixed : ∀ {other another}, other ≠ id →
        world.requests[other]? = some another → request.key = another.key →
        phase.handled = true → another.phase.handled = true → False := by
      intro other another apart there same handled handled'
      cases before : request.phase.handled with
      | true => exact apart (sound.sole there here same.symm handled' before)
      | false =>
        refine free handled before ((sound.busy request.key).mpr ?_)
        exact ⟨another, List.mem_of_getElem? there, same.symm, handled'⟩
    intro first second left right there there' same handled handled'
    rw [requests] at there there'
    rcases get_changed there with ⟨apart, old⟩ | ⟨rfl, request', old, rfl⟩
    · rcases get_changed there' with ⟨apart', old'⟩ | ⟨rfl, request'', old', rfl⟩
      · exact sound.sole old old' same handled handled'
      · rw [here] at old'
        cases old'
        exact (mixed apart old same.symm handled' handled).elim
    · rw [here] at old
      cases old
      rcases get_changed there' with ⟨apart', old'⟩ | ⟨rfl, request'', old', rfl⟩
      · exact (mixed apart' old' same handled handled').elim
      · rfl

theorem lawful_change (here : world.requests[id]? = some request)
    (requests : world'.requests =
      world.requests.modify id fun request => { request with phase := phase })
    (once : request.phase.handled = false → phase.handled = true →
      (∀ another ∈ world.requests, another.key = request.key → another.phase.handled = false) ∧
        ∀ record ∈ world.kept, record.key = request.key → record.expiresAt ≤ world.clock)
    (replayed : ∀ record, phase = .answered (.replayed record) → record ∈ world.kept ∧
      record.key = request.key ∧ record.scope = some request.principal ∧ some record.requestHash =
        request.fingerprint ∧ world.clock < record.expiresAt)
    (refused : ∀ refusal, phase = .answered (.refused refusal) → refusal = .otherPrincipal ∨
      refusal = .otherBody → ∃ record ∈ world.kept, record.key = request.key ∧
        world.clock < record.expiresAt)
    : Lawful world world' := by
  have same : ∀ {other : Nat} {before after : KeyedRequest ρ},
      world.requests[other]? = some before → world'.requests[other]? = some after →
      after.phase ≠ before.phase →
      before = request ∧ after = { request with phase := phase } := by
    intro other before after there there' moved
    rw [requests] at there'
    rcases get_changed there' with ⟨-, old⟩ | ⟨rfl, request', old, rfl⟩
    · rw [there] at old
      cases old
      exact absurd rfl moved
    · rw [here] at old there
      cases old
      cases there
      exact ⟨rfl, rfl⟩
  refine ⟨?_, ?_, ?_⟩
  · intro other before after there there' idle handled
    have moved : after.phase ≠ before.phase := by
      intro equal
      rw [equal, idle] at handled
      cases handled
    obtain ⟨rfl, rfl⟩ := same there there' moved
    exact once idle handled
  · intro other before after record there there' moved shape
    obtain ⟨rfl, rfl⟩ := same there there' moved
    exact replayed record shape
  · intro other before after refusal there there' moved shape
    obtain ⟨rfl, rfl⟩ := same there there' moved
    exact refused refusal shape

structure Keeps (before after : IdempotencyWorld ρ) : Prop where
  sound : after.Sound
  lawful : Lawful before after

theorem Keeps.refl (sound : world.Sound) : Keeps world world := by
  refine ⟨sound, ?_, ?_, ?_⟩
  · intro id request request' there there' idle handled
    rw [there] at there'
    cases there'
    rw [idle] at handled
    cases handled
  · intro id request request' record there there' moved
    rw [there] at there'
    cases there'
    exact absurd rfl moved
  · intro id request request' refusal there there' moved
    rw [there] at there'
    cases there'
    exact absurd rfl moved

def Caches (world : IdempotencyWorld ρ) (lru : SimpleLru (CacheEntry ρ)) : Prop :=
  ∀ {key entry}, lru.map.get key = some entry →
    entry.record.key = key ∧ entry.record ∈ world.kept

variable {record : IdempotencyRecord ρ}

theorem Sound.caches_set (sound : world.Sound) (keyed : record.key = key)
    (known : record ∈ world.kept) (cachedAt : Int) :
    world.Caches (world.lru.set key ⟨record, cachedAt⟩) := by
  intro other entry found
  rcases SimpleLru.get_of_set found with ⟨rfl, rfl⟩ | old
  · exact ⟨keyed, known⟩
  · exact sound.cached old

variable {lru : SimpleLru (CacheEntry ρ)}

theorem Caches.delete (caches : world.Caches lru) (key : String) :
    world.Caches (lru.delete key) :=
  fun found => caches (SimpleLru.get_of_delete found)

/-- Without a record in the store, none that was kept is alive. -/
theorem Sound.dead (sound : world.Sound) (gone : world.store.get key = none)
    (known : record ∈ world.kept) (keyed : record.key = key) :
    record.expiresAt ≤ world.clock := by
  by_contra alive
  have there := sound.alive record known (Int.not_le.mp alive)
  rw [keyed, gone] at there
  cases there

theorem Sound.quiet (sound : world.Sound) (here : world.requests[id]? = some request)
    (caches : world.Caches lru) (idle : request.phase.handled = false)
    (idle' : phase.handled = false)
    (seen : ∀ record ∈ phase.found, record.key = request.key ∧ record ∈ world.kept)
    (reads : world.Reads { request with phase := phase })
    (replayed : ∀ record, phase = .answered (.replayed record) → record ∈ world.kept ∧
      record.key = request.key ∧ record.scope = some request.principal ∧ some record.requestHash =
        request.fingerprint ∧ world.clock < record.expiresAt)
    (refused : ∀ refusal, phase = .answered (.refused refusal) → refusal = .otherPrincipal ∨
      refusal = .otherBody → ∃ record ∈ world.kept, record.key = request.key ∧
        world.clock < record.expiresAt) :
    Keeps world ({ world with lru := lru }.withPhase id phase) := by
  have alone : world.Alone { request with phase := phase } := by
    cases phase with
    | executing => cases idle'
    | storing => cases idle'
    | _ => trivial
  have busy : ∀ key, key ∈ world.inFlight ↔
      (key = request.key ∧ phase.handled = true) ∨
        (key ∈ world.inFlight ∧ (key = request.key → request.phase.handled = false)) := by
    intro key
    simp [idle, idle']
  refine ⟨sound.change here rfl sound.keyed caches seen (fun _ known => known) sound.bound
    sound.alive busy ?_ ⟨reads, alone⟩ ?_, lawful_change here rfl ?_ replayed refused⟩
  · intro handled
    rw [idle'] at handled
    cases handled
  · intro other another _ there
    exact ⟨sound.reads another (List.mem_of_getElem? there),
      sound.alone another (List.mem_of_getElem? there)⟩
  · intro _ handled
    rw [idle'] at handled
    cases handled

theorem Sound.enter (sound : world.Sound) (here : world.requests[id]? = some request)
    (idle : request.phase.handled = false) (gone : world.store.get request.key = none) :
    Keeps world (world.enter id request) := by
  unfold IdempotencyWorld.enter
  split
  · refine sound.quiet here sound.cached idle rfl (by rintro _ ⟨⟩) trivial
      (by rintro _ ⟨⟩) ?_
    intro refusal shape conflict
    cases shape
    rcases conflict with other | other
    · cases other
    · cases other
  · rename_i absent
    have dead : ∀ record ∈ world.kept, record.key = request.key →
        record.expiresAt ≤ world.clock := fun record known keyed =>
      sound.dead gone known keyed
    refine ⟨sound.change here rfl sound.keyed sound.cached (by rintro _ ⟨⟩)
      (fun _ known => known) sound.bound sound.alive ?_ (fun _ _ => absent)
      ⟨trivial, dead⟩ ?_, lawful_change here rfl ?_ (by rintro _ ⟨⟩)
      (by rintro _ ⟨⟩)⟩
    · intro key
      have executing : (IdempotencyPhase.executing : IdempotencyPhase ρ).handled = true :=
        rfl
      simp [IdempotencyWorld.withPhase, idle, executing]
    · intro other another _ there
      exact ⟨sound.reads another (List.mem_of_getElem? there),
        sound.alone another (List.mem_of_getElem? there)⟩
    · intro _ _
      refine ⟨?_, dead⟩
      intro another member same
      by_contra handled
      exact absent ((sound.busy request.key).mpr
        ⟨another, member, same, Bool.not_eq_false _ ▸ handled⟩)

theorem Sound.leave (sound : world.Sound) (here : world.requests[id]? = some request)
    (handled : request.phase.handled = true) (caches : world.Caches lru) :
    Keeps world ({ world with lru := lru }.leave id request) := by
  refine ⟨sound.change here rfl sound.keyed caches (by rintro _ ⟨⟩)
    (fun _ known => known) sound.bound sound.alive ?_ (fun handled' => by cases handled')
    ⟨trivial, trivial⟩ ?_, lawful_change here rfl (fun idle => by
      rw [handled] at idle
      cases idle) (by rintro _ ⟨⟩) (by rintro _ ⟨⟩)⟩
  · intro key
    have past : (IdempotencyPhase.answered .executed : IdempotencyPhase ρ).handled =
        false := rfl
    simp [IdempotencyWorld.leave, IdempotencyWorld.withPhase, handled, past]
  · intro other another _ there
    exact ⟨sound.reads another (List.mem_of_getElem? there),
      sound.alone another (List.mem_of_getElem? there)⟩

theorem Sound.judge (checks : config.checkBodyFingerprint = true) (sound : world.Sound)
    (here : world.requests[id]? = some request) (idle : request.phase.handled = false)
    (caches : world.Caches lru) (keyed : record.key = request.key)
    (known : record ∈ world.kept) (agrees : Agrees config world.clock request record)
    (current : record.expiresAt ≤ world.clock → world.store.get request.key = none ∨
      world.store.get request.key = some record) :
    Keeps world ({ world with lru := lru }.judge config id request record) := by
  have alive : (record.scope ≠ none ∧ record.scope ≠ some request.principal) ∨
      (config.checkBodyFingerprint = true ∧
        some record.requestHash ≠ request.fingerprint) →
      world.clock < record.expiresAt := by
    intro differs
    by_contra expired
    obtain ⟨principal, body⟩ := agrees (Int.not_lt.mp expired)
    rcases differs with ⟨some', other⟩ | ⟨checked, other⟩
    · rcases principal with none' | same
      · exact some' none'
      · exact other same
    · exact other (body checked)
  have refuse : ∀ refusal, world.clock < record.expiresAt →
      Keeps world ({ world with lru := lru }.withPhase id
        (.answered (.refused refusal))) := by
    intro refusal fresh
    refine sound.quiet here caches idle rfl (by rintro _ ⟨⟩) trivial
      (by rintro _ ⟨⟩) ?_
    intro _ _ _
    exact ⟨record, known, keyed, fresh⟩
  simp only [IdempotencyWorld.judge, decideRecord]
  by_cases principal : record.scope ≠ none ∧ record.scope ≠ some request.principal
  · rw [if_pos principal]
    exact refuse _ (alive (.inl principal))
  · rw [if_neg principal]
    by_cases body : config.checkBodyFingerprint = true ∧
        some record.requestHash ≠ request.fingerprint
    · rw [if_pos body]
      exact refuse _ (alive (.inr body))
    · rw [if_neg body]
      by_cases fresh : world.clock < record.expiresAt
      · rw [if_pos fresh]
        refine sound.quiet here caches idle rfl (by rintro _ ⟨⟩) trivial
          ?_ (by rintro _ ⟨⟩)
        intro replayed shape
        cases shape
        refine ⟨known, keyed, ?_, ?_, fresh⟩
        · by_contra other
          exact principal ⟨sound.bound record known, other⟩
        · by_contra other
          exact body ⟨checks, other⟩
      · rw [if_neg fresh]
        have expired := Int.not_lt.mp fresh
        exact sound.quiet here (caches.delete request.key) idle rfl
          (by rintro _ ⟨⟩) ⟨expired, current expired⟩
          (by rintro _ ⟨⟩) (by rintro _ ⟨⟩)

/-- A store that lost what was read leaves the reading as good as it was. -/
theorem Reads.shrink (reads : world.Reads request) (clock : world'.clock = world.clock)
    (kept : world'.kept = world.kept)
    (store : world'.store.get request.key = none ∨ world'.store.get request.key =
      world.store.get request.key) :
    world'.Reads request := by
  unfold Reads at reads ⊢
  cases phase : request.phase with
  | got =>
    simp only [phase] at reads ⊢
    rcases store with gone | same
    · exact .inl gone
    · rwa [same]
  | deleting =>
    simp only [phase] at reads ⊢
    refine ⟨by rw [clock]; exact reads.1, ?_⟩
    rcases store with gone | same
    · exact .inl gone
    · rw [same]
      exact reads.2
  | deleted =>
    simp only [phase] at reads ⊢
    rcases store with gone | same
    · exact gone
    · rwa [same]
  | stored =>
    simp only [phase] at reads ⊢
    rwa [kept]
  | storing => simpa only [phase] using reads
  | _ => trivial

theorem Sound.lookUp (checks : config.checkBodyFingerprint = true) (sound : world.Sound)
    (here : world.requests[id]? = some request) (arrived : request.phase = .arrived)
    (admitted : world.Admits config (.read id)) :
    Keeps world (world.lookUp config id request) := by
  have idle : request.phase.handled = false := by rw [arrived]; rfl
  have caches : world.Caches (world.lru.get request.key).2 := by
    intro key entry found
    rw [SimpleLru.get_snd] at found
    exact sound.cached found
  simp only [IdempotencyWorld.lookUp]
  split
  · refine sound.quiet here sound.cached idle rfl (by rintro _ ⟨⟩) trivial
      (by rintro _ ⟨⟩) ?_
    intro refusal shape conflict
    cases shape
    rcases conflict with other | other
    · cases other
    · cases other
  · split
    · rename_i entry hit
      obtain ⟨found, recent⟩ := Option.filter_eq_some_iff.mp hit
      rw [SimpleLru.get_fst] at found
      obtain ⟨keyed, known⟩ := sound.cached found
      obtain ⟨agrees, current⟩ := admitted request here entry found recent
      exact sound.judge config checks here idle caches keyed known agrees current
    · exact sound.quiet here caches idle rfl (by rintro _ ⟨⟩) trivial
        (by rintro _ ⟨⟩) (by rintro _ ⟨⟩)

theorem Sound.still_busy (sound : world.Sound) (here : world.requests[id]? = some request)
    (handled : request.phase.handled = true) (handled' : phase.handled = true)
    (key : String) :
    key ∈ world.inFlight ↔ (key = request.key ∧ phase.handled = true) ∨
      (key ∈ world.inFlight ∧ (key = request.key → request.phase.handled = false)) := by
  have flying : request.key ∈ world.inFlight :=
    (sound.busy request.key).mpr ⟨request, List.mem_of_getElem? here, rfl, handled⟩
  by_cases same : key = request.key
  · simp [same, handled', flying]
  · simp [same]

theorem Sound.put (sound : world.Sound) (here : world.requests[id]? = some request)
    (phase : request.phase = .storing record) (keyed : record.key = request.key)
    (scope : record.scope = some request.principal)
    (lone : ∀ other ∈ world.kept, other.key = request.key → other.expiresAt ≤ world.clock)
    (aside : ∀ another ∈ world.requests, another.key = request.key → another.phase.consulting =
      false) :
    Keeps world ({ world with
      store := world.store.set record.key record
      kept := world.kept ++ [record] }.withPhase id (.stored record)) := by
  have handled : request.phase.handled = true := by rw [phase]; rfl
  have longer : ∀ other ∈ world.kept, other ∈ world.kept ++ [record] :=
    fun other known => List.mem_append_left _ known
  have last : record ∈ world.kept ++ [record] :=
    List.mem_append_right _ List.mem_cons_self
  refine ⟨sound.change here rfl ?_ ?_ (by rintro _ ⟨⟩) longer ?_ ?_
    (sound.still_busy here handled rfl) (fun _ idle => by
      rw [handled] at idle
      cases idle) ⟨⟨keyed, last⟩, trivial⟩ ?_,
    lawful_change here rfl (fun idle => by
      rw [handled] at idle
      cases idle) (by rintro _ ⟨⟩) (by rintro _ ⟨⟩)⟩
  · intro key found there
    simp only [IdempotencyWorld.withPhase, OrderedMap.get_set] at there ⊢
    split at there
    · rename_i same
      cases there
      exact ⟨same.symm, last⟩
    · obtain ⟨own, known⟩ := sound.keyed there
      exact ⟨own, longer found known⟩
  · intro key entry there
    obtain ⟨own, known⟩ := sound.cached there
    exact ⟨own, longer entry.record known⟩
  · intro other known
    rcases List.mem_append.mp known with old | new
    · exact sound.bound other old
    · rw [List.mem_singleton.mp new, scope]
      exact Option.some_ne_none _
  · intro other known fresh
    simp only [IdempotencyWorld.withPhase, OrderedMap.get_set]
    rcases List.mem_append.mp known with old | new
    · have apart : other.key ≠ record.key := by
        intro same
        exact absurd (lone other old (same.trans keyed)) (Int.not_le.mpr fresh)
      rw [if_neg apart]
      exact sound.alive other old fresh
    · rw [List.mem_singleton.mp new, if_pos rfl]
  · intro other another apart there
    have member := List.mem_of_getElem? there
    by_cases same : another.key = request.key
    · have out := aside another member same
      have idle : another.phase.handled = false := by
        by_contra busy
        exact apart (sound.sole there here same (Bool.not_eq_false _ ▸ busy) handled)
      have read := sound.reads another member
      unfold Reads Alone
      unfold Reads at read
      cases kind : another.phase with
      | got =>
        rw [kind] at out
        cases out
      | deleting =>
        rw [kind] at out
        cases out
      | deleted =>
        rw [kind] at out
        cases out
      | executing =>
        rw [kind] at idle
        cases idle
      | storing =>
        rw [kind] at idle
        cases idle
      | stored =>
        rw [kind] at idle
        cases idle
      | _ => exact ⟨trivial, trivial⟩
    · have elsewhere : (world.store.set record.key record).get another.key =
          world.store.get another.key := by
        rw [OrderedMap.get_set, if_neg]
        exact fun equal => same (equal.trans keyed)
      have read := sound.reads another member
      have alone := sound.alone another member
      have others : ∀ other' ∈ world.kept ++ [record], other'.key = another.key →
          other' ∈ world.kept := by
        intro other' known equal
        rcases List.mem_append.mp known with old | new
        · exact old
        · rw [List.mem_singleton.mp new, keyed] at equal
          exact absurd equal.symm same
      unfold Reads Alone at *
      simp only [IdempotencyWorld.withPhase, elsewhere]
      cases kind : another.phase with
      | stored other' =>
        simp only [kind] at read ⊢
        exact ⟨⟨read.1, longer other' read.2⟩, trivial⟩
      | executing =>
        simp only [kind] at alone ⊢
        exact ⟨trivial, fun other' known equal =>
          alone other' (others other' known equal) equal⟩
      | storing other' =>
        simp only [kind] at read alone ⊢
        exact ⟨read, fun other' known equal =>
          alone other' (others other' known equal) equal⟩
      | _ =>
        simp only [kind] at read ⊢
        exact ⟨read, trivial⟩

theorem Sound.serve (sound : world.Sound) (here : world.requests[id]? = some request)
    (admitted : world.Admits config (.served id fails)) :
    Keeps world (world.serve id request fails) := by
  have member := List.mem_of_getElem? here
  have failed : request.phase.handled = false →
      Keeps world (world.withPhase id (.answered .threw)) := fun idle =>
    sound.quiet here sound.cached idle rfl (by rintro _ ⟨⟩) trivial
      (by rintro _ ⟨⟩) (by rintro _ ⟨⟩)
  unfold IdempotencyWorld.serve
  cases phase : request.phase with
  | getting =>
    have idle : request.phase.handled = false := by rw [phase]; rfl
    simp only
    split
    · exact failed idle
    · refine sound.quiet here sound.cached idle rfl ?_ (.inr rfl)
        (by rintro _ ⟨⟩) (by rintro _ ⟨⟩)
      intro record found
      exact sound.keyed found
  | deleting =>
    have idle : request.phase.handled = false := by rw [phase]; rfl
    simp only
    split
    · exact failed idle
    · have read := sound.reads request member
      simp only [Reads, phase] at read
      obtain ⟨expired, current⟩ := read
      have less : ∀ {key found}, (world.store.delete request.key).get key = some found →
          world.store.get key = some found := by
        intro key found there
        rw [OrderedMap.get_delete] at there
        split at there
        · cases there
        · exact there
      refine ⟨sound.change here rfl (fun there => sound.keyed (less there)) sound.cached
        (by rintro _ ⟨⟩) (fun _ known => known) sound.bound ?_ ?_
        (fun handled => by cases handled) ⟨?_, trivial⟩ ?_,
        lawful_change here rfl (by rintro _ ⟨⟩)
          (by rintro _ ⟨⟩) (by rintro _ ⟨⟩)⟩
      · intro other known fresh
        have there := sound.alive other known fresh
        simp only [IdempotencyWorld.withPhase, OrderedMap.get_delete]
        rw [if_neg]
        · exact there
        · intro same
          rw [same] at there
          rcases current with gone | old
          · rw [gone] at there
            cases there
          · rw [old] at there
            cases there
            exact absurd expired (Int.not_le.mpr fresh)
      · intro key
        have past : (IdempotencyPhase.deleted : IdempotencyPhase ρ).handled = false :=
          rfl
        simp [IdempotencyWorld.withPhase, idle, past]
      · show (world.store.delete request.key).get request.key = none
        rw [OrderedMap.get_delete, if_pos rfl]
      · intro other another _ there
        refine ⟨?_, sound.alone another (List.mem_of_getElem? there)⟩
        have before := sound.reads another (List.mem_of_getElem? there)
        have shrunk : (world.store.delete request.key).get another.key = none ∨
            (world.store.delete request.key).get another.key =
              world.store.get another.key := by
          rw [OrderedMap.get_delete]
          split
          · exact .inl rfl
          · exact .inr rfl
        exact before.shrink rfl rfl shrunk
  | storing record =>
    have handled : request.phase.handled = true := by rw [phase]; rfl
    have read := sound.reads request member
    have lone := sound.alone request member
    simp only [Reads, phase] at read
    simp only [Alone, phase] at lone
    obtain ⟨keyed, scope⟩ := read
    simp only
    split
    · refine ⟨sound.change here rfl sound.keyed sound.cached
        (by rintro _ ⟨⟩) (fun _ known => known) sound.bound sound.alive
        (sound.still_busy here handled rfl) (fun _ idle => by
          rw [handled] at idle
          cases idle) ⟨trivial, trivial⟩ ?_,
        lawful_change here rfl (fun idle => by
          rw [handled] at idle
          cases idle) (by rintro _ ⟨⟩) (by rintro _ ⟨⟩)⟩
      intro other another _ there
      exact ⟨sound.reads another (List.mem_of_getElem? there),
        sound.alone another (List.mem_of_getElem? there)⟩
    · rename_i stored
      have aside := admitted (Bool.eq_false_iff.mpr stored) request here record
        (by rw [phase]; rfl)
      exact sound.put here phase keyed scope lone aside
  | _ => exact .refl sound

theorem Sound.resume (checks : config.checkBodyFingerprint = true) (sound : world.Sound)
    (here : world.requests[id]? = some request)
    (admitted : world.Admits config (.resumed id)) :
    Keeps world (world.resume config id request) := by
  have member := List.mem_of_getElem? here
  have read := sound.reads request member
  unfold IdempotencyWorld.resume
  cases phase : request.phase with
  | got found =>
    have idle : request.phase.handled = false := by rw [phase]; rfl
    simp only [Reads, phase] at read
    cases found with
    | none =>
      exact sound.enter here idle (by rcases read with gone | gone <;> exact gone)
    | some record =>
      have there : record ∈ request.phase.found := by rw [phase]; rfl
      obtain ⟨keyed, known⟩ := sound.seen request member record there
      exact sound.judge config checks here idle
        (sound.caches_set keyed known world.clock) keyed known
        (admitted request here record there) fun _ => read
  | deleted =>
    have idle : request.phase.handled = false := by rw [phase]; rfl
    simp only [Reads, phase] at read
    exact sound.enter here idle read
  | stored =>
    have handled : request.phase.handled = true := by rw [phase]; rfl
    simp only [Reads, phase] at read
    exact sound.leave here handled (sound.caches_set read.1 read.2 world.clock)
  | unstored =>
    have handled : request.phase.handled = true := by rw [phase]; rfl
    exact sound.leave here handled sound.cached
  | _ => exact .refl sound

theorem Sound.respond (sound : world.Sound) (here : world.requests[id]? = some request)
    (response : Option (HandlerResponse ρ)) :
    Keeps world (world.respond config id request response) := by
  have member := List.mem_of_getElem? here
  unfold IdempotencyWorld.respond
  cases phase : request.phase with
  | executing =>
    have handled : request.phase.handled = true := by rw [phase]; rfl
    have left : Keeps world (world.leave id request) :=
      sound.leave here handled sound.cached
    have lone := sound.alone request member
    simp only [Alone, phase] at lone
    cases response with
    | none => exact left
    | some =>
      simp only
      split
      · exact left
      · split
        · exact left
        · refine ⟨sound.change here rfl sound.keyed sound.cached
            (by rintro _ ⟨⟩) (fun _ known => known) sound.bound
            sound.alive (sound.still_busy here handled rfl) (fun _ idle => by
              rw [handled] at idle
              cases idle) ⟨⟨rfl, rfl⟩, lone⟩ ?_,
            lawful_change here rfl (fun idle => by
              rw [handled] at idle
              cases idle) (by rintro _ ⟨⟩)
              (by rintro _ ⟨⟩)⟩
          intro other another _ there
          exact ⟨sound.reads another (List.mem_of_getElem? there),
            sound.alone another (List.mem_of_getElem? there)⟩
  | _ => exact .refl sound

theorem lawful_still
    (same : ∀ {id : Nat} {request : KeyedRequest ρ}, before.requests[id]? = some request →
      after.requests[id]? = some request) :
    Lawful before after := by
  refine ⟨?_, ?_, ?_⟩
  · intro id request request' there there' idle handled
    rw [same there] at there'
    cases there'
    rw [idle] at handled
    cases handled
  · intro id request request' record there there' moved
    rw [same there] at there'
    cases there'
    exact absurd rfl moved
  · intro id request request' refusal there there' moved
    rw [same there] at there'
    cases there'
    exact absurd rfl moved

theorem Sound.arrive (sound : world.Sound) (request : HttpRequest) :
    Keeps world (world.arrive config request) := by
  simp only [IdempotencyWorld.arrive]
  generalize shape : admitted config request = fresh
  have kind : fresh.phase.handled = false ∧ fresh.phase.found = none ∧
      world.Reads fresh ∧ world.Alone fresh := by
    rw [← shape, admitted]
    split
    · exact ⟨rfl, rfl, trivial, trivial⟩
    · exact ⟨rfl, rfl, trivial, trivial⟩
  obtain ⟨idle, unseen, reads, alone⟩ := kind
  have either : ∀ another ∈ world.requests ++ [fresh],
      another ∈ world.requests ∨ another = fresh := by
    intro another member
    rcases List.mem_append.mp member with old | new
    · exact .inl old
    · exact .inr (List.mem_singleton.mp new)
  have indexed : ∀ {id : Nat} {another : KeyedRequest ρ},
      (world.requests ++ [fresh])[id]? = some another → another.phase.handled = true →
      world.requests[id]? = some another := by
    intro id another there handled
    rw [List.getElem?_append] at there
    split at there
    · exact there
    · have new := List.mem_singleton.mp (List.mem_of_getElem? there)
      rw [new, idle] at handled
      cases handled
  refine ⟨⟨sound.keyed, sound.cached, ?_, sound.bound, sound.alive, ?_, ?_, ?_, ?_⟩,
    lawful_still fun there => List.getElem?_append_left
      (List.getElem?_eq_some_iff.mp there).1 ▸ there⟩
  · intro another member record found
    rcases either another member with old | rfl
    · exact sound.seen another old record found
    · rw [unseen] at found
      cases found
  · intro key
    refine (sound.busy key).trans ?_
    constructor
    · rintro ⟨another, member, facts⟩
      exact ⟨another, List.mem_append_left _ member, facts⟩
    · rintro ⟨another, member, same, handled⟩
      rcases either another member with old | rfl
      · exact ⟨another, old, same, handled⟩
      · rw [idle] at handled
        cases handled
  · intro first second left right there there' same handled handled'
    exact sound.sole (indexed there handled) (indexed there' handled') same handled
      handled'
  · intro another member
    rcases either another member with old | rfl
    · exact sound.reads another old
    · exact reads
  · intro another member
    rcases either another member with old | rfl
    · exact sound.alone another old
    · exact alone

theorem Sound.sweep (sound : world.Sound) : Keeps world world.sweep := by
  have less : ∀ key, world.sweep.store.get key = none ∨
      world.sweep.store.get key = world.store.get key := by
    intro key
    simp only [IdempotencyWorld.sweep, OrderedMap.get_deleteAll]
    split
    · exact .inl rfl
    · exact .inr rfl
  refine ⟨⟨?_, sound.cached, sound.seen, sound.bound, ?_, sound.busy, sound.sole, ?_,
    sound.alone⟩, lawful_still fun there => there⟩
  · intro key record there
    rcases less key with gone | same
    · rw [gone] at there
      cases there
    · rw [same] at there
      exact sound.keyed there
  · intro record known fresh
    have there := sound.alive record known fresh
    simp only [IdempotencyWorld.sweep, OrderedMap.get_deleteAll]
    rw [if_neg]
    · exact there
    · intro member
      obtain ⟨⟨key, old⟩, entry, same⟩ := List.mem_map.mp member
      obtain ⟨stored, expired⟩ := List.mem_filter.mp entry
      simp only [decide_eq_true_eq] at expired same
      subst same
      rw [OrderedMap.get_eq_some.mpr stored] at there
      cases there
      exact absurd fresh (Int.not_lt.mpr (Int.le_of_lt expired))
  · intro another member
    exact (sound.reads another member).shrink rfl rfl (less another.key)

theorem Sound.elapse (sound : world.Sound) (ms : Nat) :
    Keeps world { world with clock := world.clock + ms } := by
  have later : world.clock ≤ world.clock + ms := by omega
  refine ⟨⟨sound.keyed, sound.cached, sound.seen, sound.bound, ?_, sound.busy, sound.sole,
    ?_, ?_⟩, lawful_still fun there => there⟩
  · intro record known fresh
    exact sound.alive record known (Int.lt_of_le_of_lt later fresh)
  · intro another member
    have read := sound.reads another member
    unfold Reads at *
    cases kind : another.phase with
    | deleting =>
      simp only [kind] at read ⊢
      exact ⟨Int.le_trans read.1 later, read.2⟩
    | got => simpa only [kind] using read
    | deleted => simpa only [kind] using read
    | stored => simpa only [kind] using read
    | storing => simpa only [kind] using read
    | _ => trivial
  · intro another member
    have alone := sound.alone another member
    unfold Alone at *
    cases kind : another.phase with
    | executing =>
      simp only [kind] at alone ⊢
      exact fun record known same => Int.le_trans (alone record known same) later
    | storing record =>
      simp only [kind] at alone ⊢
      exact fun record known same => Int.le_trans (alone record known same) later
    | _ => trivial

theorem step_keeps (checks : config.checkBodyFingerprint = true) (sound : world.Sound)
    (admitted : world.Admits config move) :
    Keeps world (world.step config move) := by
  cases move with
  | arrived request => exact sound.arrive config request
  | read id =>
    simp only [step]
    split
    · rename_i request here
      split
      · rename_i arrived
        exact sound.lookUp config checks here arrived admitted
      · exact .refl sound
    · exact .refl sound
  | served id fails =>
    simp only [step]
    split
    · rename_i request here
      exact sound.serve config here admitted
    · exact .refl sound
  | resumed id =>
    simp only [step]
    split
    · rename_i request here
      exact sound.resume config checks here admitted
    · exact .refl sound
  | responded id response =>
    simp only [step]
    split
    · rename_i request here
      exact sound.respond config here response
    · exact .refl sound
  | swept => exact sound.sweep
  | elapsed ms => exact sound.elapse ms

theorem decideRecord_expired {now : Int} {record : IdempotencyRecord ρ}
    (agrees : Agrees config now request record) (expired : record.expiresAt ≤ now) :
    decideRecord config now request record = .expired record := by
  obtain ⟨principal, body⟩ := agrees expired
  rw [decideRecord, if_neg, if_neg, if_neg (Int.not_lt.mpr expired)]
  · rintro ⟨checked, other⟩
    exact other (body checked)
  · rintro ⟨some', other⟩
    rcases principal with none' | same
    · exact some' none'
    · exact other same

theorem judge_expired (here : world.requests[id]? = some request)
    {record : IdempotencyRecord ρ} (agrees : Agrees config world.clock request record)
    (expired : record.expiresAt ≤ world.clock) (lru : SimpleLru (CacheEntry ρ)) :
    ({ world with lru := lru }.judge config id request record).requests[id]? =
      some { request with phase := .deleting record } := by
  rw [judge, decideRecord_expired config agrees expired]
  exact changed_self here _

theorem enter_checks (here : world.requests[id]? = some request) :
    (world.enter id request).requests[id]? = some { request with
      phase := if request.key ∈ world.inFlight then .answered (.refused .inFlight)
        else .executing } := by
  rw [enter]
  split
  · exact changed_self here _
  · exact changed_self here _

theorem Sound.onward (sound : world.Sound) {move : Move ρ}
    (admitted : world.Admits config move) : world.Onward config move := by
  constructor
  case looked =>
    intro id request same here arrived given spent
    subst same
    simp only [step, here, arrived, IdempotencyWorld.lookUp, if_neg given]
    split
    · rename_i entry hit
      obtain ⟨found, recent⟩ := Option.filter_eq_some_iff.mp hit
      rw [SimpleLru.get_fst] at found
      obtain ⟨keyed, known⟩ := sound.cached found
      have agrees := (admitted request here entry found recent).1
      exact ⟨_, judge_expired config here agrees (spent _ known keyed) _, .inr ⟨_, rfl⟩⟩
    · exact ⟨_, changed_self here _, .inl rfl⟩
  case answered =>
    intro id request record same here got spent
    subst same
    have there : record ∈ request.phase.found := by rw [got]; rfl
    obtain ⟨keyed, known⟩ := sound.seen request (List.mem_of_getElem? here) record there
    simp only [step, here, IdempotencyWorld.resume, got]
    exact judge_expired config here (admitted request here record there)
      (spent record known keyed) _
  case deleted =>
    intro id request record same here deleting
    subst same
    simp only [step, here, IdempotencyWorld.serve, deleting, Bool.false_eq_true, if_false]
    exact ⟨changed_self here _, (OrderedMap.get_delete ..).trans (if_pos rfl)⟩
  case checked =>
    intro id request same here phase
    subst same
    rcases phase with phase | phase
    · simp only [step, here, IdempotencyWorld.resume, phase]
      exact enter_checks here
    · simp only [step, here, IdempotencyWorld.resume, phase]
      exact enter_checks here

/-- A store whose records are filed under their own keys, and name a principal. -/
structure Filed (store : OrderedMap String (IdempotencyRecord ρ)) : Prop where
  keyed : ∀ {key record}, store.get key = some record → record.key = key
  bound : ∀ {key record}, store.get key = some record → record.scope ≠ none

end IdempotencyWorld

end Graphorin.Server
