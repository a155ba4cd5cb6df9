import Graphorin.Auth.Protocol
import Mathlib.Data.Fintype.Basic

namespace Graphorin.Auth

open Graphorin.Js
open Graphorin.Lib (Program Handler OrderedMap Pool Action)

/-! When a revocation takes effect. -/

def Digest (hashHex : String) : Prop :=
  ∃ bytes : Bytes, bytes.length = 32 ∧ hashHex = Bytes.toHex bytes

/-- The row is still there, and no less revoked. -/
def Stored (world : World) (record : AuthTokenRecord) (id : String) : Prop :=
  record.id = id ∧ ∃ current, world.records.get id = some current ∧
    current.hashHex = record.hashHex ∧
    (record.revokedAt.isSome = true → current.revokedAt.isSome = true)

def Revoked (world : World) (id : String) : Prop :=
  ∃ current, world.records.get id = some current ∧ current.revokedAt.isSome = true

def Tells (start world : World) : AuthAction → Prop
  | .called (.get id) (.ok (some record)) => Stored world record id
  | .called (.getByHash _) (.ok (some record)) => Stored world record record.id
  | .called .list (.ok records) =>
    ∀ record ∈ records, Stored world record record.id
  | .called (.hmac _ _) hashHex => Digest hashHex
  | .called .randomUUID uuid =>
    ∃ draw, start.drawn ≤ draw ∧ draw < world.drawn ∧ uuid = start.uuids draw
  | .called (.revoke id _) (.ok ()) => Revoked world id
  | _ => True

structure Keeps (before after : World) : Prop where
  rows : ∀ id current, before.records.get id = some current →
    ∃ later, after.records.get id = some later ∧ later.id = current.id ∧
      later.hashHex = current.hashHex ∧
      (current.revokedAt.isSome = true → later.revokedAt.isSome = true)
  drawn : before.drawn ≤ after.drawn

theorem Keeps.stored {before after : World} (keeps : Keeps before after)
    {record : AuthTokenRecord} {id : String} (stored : Stored before record id) :
    Stored after record id := by
  obtain ⟨own, current, known, hash, active⟩ := stored
  obtain ⟨later, found, -, sameHash, stays⟩ := keeps.rows _ _ known
  exact ⟨own, later, found, sameHash.trans hash, fun revoked => stays (active revoked)⟩

theorem Keeps.revoked {before after : World} (keeps : Keeps before after)
    {id : String} (revoked : Revoked before id) : Revoked after id := by
  obtain ⟨current, known, stamped⟩ := revoked
  obtain ⟨later, found, -, -, stays⟩ := keeps.rows _ _ known
  exact ⟨later, found, stays stamped⟩

theorem Tells.mono {start before after : World} {action : AuthAction}
    (keeps : Keeps before after) (tells : Tells start before action) :
    Tells start after action := by
  unfold Tells at tells ⊢
  split at tells
  · exact keeps.stored tells
  · exact keeps.stored tells
  · exact fun record listed => keeps.stored (tells record listed)
  · exact tells
  · obtain ⟨draw, low, high, same⟩ := tells
    exact ⟨draw, low, lt_of_lt_of_le high keeps.drawn, same⟩
  · exact keeps.revoked tells
  · trivial

section Steps

variable {crypto : Crypto} {options : VerifierOptions} {world : World}

theorem called_inj {op op' : AuthOp} {answer : op.Answer} {answer' : op'.Answer}
    (same : did op answer = did op' answer') : op = op' ∧ HEq answer answer' := by
  injection same with ops answers
  exact ⟨ops, answers⟩

theorem keeps_of_handle {op : AuthOp}
    (fresh : ∀ record, op = .put record → world.records.get record.id = none) :
    Keeps world (handle crypto options op world).2 where
  drawn := (generators op).1
  rows := by
    intro id current known
    have step := @rowStep crypto options world id op
    rw [known] at step
    generalize acted : did op (handle crypto options op world).1 = action at step
    generalize (handle crypto options op world).2.records.get id = after at step
    cases step with
    | same same => exact ⟨current, same, rfl, rfl, fun revoked => revoked⟩
    | put own put =>
      rename_i record
      have absent := fresh record (called_inj acted).1
      rw [own, known] at absent
      cases absent
    | revoked found stamped =>
      cases found
      exact ⟨_, stamped, rfl, rfl, fun _ => rfl⟩
    | used found stamped =>
      cases found
      exact ⟨_, stamped, rfl, rfl, fun revoked => revoked⟩

theorem storeCall_ok {α : Type} {value answered : α}
    {records : OrderedMap String AuthTokenRecord}
    (ok : (world.storeCall value records).1 = .ok answered) :
    answered = value ∧ (world.storeCall value records).2.records = records := by
  rcases @storeCall_cases world _ value records with
    ⟨failed, -⟩ | ⟨stored, same⟩
  · rw [failed] at ok
    cases ok
  · rw [stored] at ok
    exact ⟨(Except.ok.inj ok).symm, same⟩

theorem mem_rows {record : AuthTokenRecord}
    (keyed : ∀ id record, world.records.get id = some record → record.id = id)
    (listed : record ∈ world.rows) : world.records.get record.id = some record := by
  obtain ⟨⟨id, row⟩, entry, rfl⟩ := List.mem_map.mp listed
  have known := OrderedMap.get_eq_some.mpr entry
  rw [keyed _ _ known]
  exact known

theorem stored_self {record : AuthTokenRecord} {id : String}
    (keyed : ∀ id record, world.records.get id = some record → record.id = id)
    (known : world.records.get id = some record) : Stored world record id :=
  ⟨keyed _ _ known, record, known, rfl, fun revoked => revoked⟩

theorem tells_of_handle {start : World} {op : AuthOp}
    (keyed : ∀ id record, world.records.get id = some record → record.id = id)
    (later : start.drawn ≤ world.drawn) (uuids : world.uuids = start.uuids)
    (known : ∀ id ts, op = .revoke id ts → ∃ current,
      world.records.get id = some current) :
    Tells start (handle crypto options op world).2
      (did op (handle crypto options op world).1) := by
  cases op with
  | get id =>
    generalize answered : (handle crypto options (.get id) world).1 = answer
    rcases answer with error | _ | record
    · trivial
    · trivial
    · obtain ⟨same, unchanged⟩ := storeCall_ok answered
      obtain ⟨own, rest⟩ := stored_self keyed same.symm
      exact ⟨own, by rw [handle, unchanged]; exact rest⟩
  | getByHash hashHex =>
    generalize answered : (handle crypto options (.getByHash hashHex) world).1 =
      answer
    rcases answer with error | _ | record
    · trivial
    · trivial
    · obtain ⟨same, unchanged⟩ := storeCall_ok answered
      have listed := List.mem_of_find?_eq_some same.symm
      obtain ⟨own, rest⟩ := stored_self keyed (mem_rows keyed listed)
      exact ⟨own, by rw [handle, unchanged]; exact rest⟩
  | list =>
    generalize answered : (handle crypto options .list world).1 = answer
    rcases answer with error | records
    · trivial
    · obtain ⟨rfl, unchanged⟩ := storeCall_ok answered
      intro record listed
      obtain ⟨own, rest⟩ := stored_self keyed (mem_rows keyed listed)
      exact ⟨own, by rw [handle, unchanged]; exact rest⟩
  | revoke id ts =>
    generalize answered : (handle crypto options (.revoke id ts) world).1 = answer
    rcases answer with error | ⟨⟩
    · trivial
    · obtain ⟨-, changed⟩ := storeCall_ok answered
      obtain ⟨current, found⟩ := known id ts rfl
      refine ⟨{ current with revokedAt := some ts }, ?_, rfl⟩
      rw [handle, changed, get_update, if_pos rfl, found]
      rfl
  | hmac pepper raw => exact ⟨crypto.hmac pepper raw, crypto.hmac_length .., rfl⟩
  | randomUUID =>
    exact ⟨world.drawn, later, Nat.lt_succ_self _, by rw [handle, uuids]⟩
  | _ => trivial

theorem revoked_of_handle {op : AuthOp} {id : String}
    (born : ∀ record, op = .put record → record.revokedAt = none)
    (revoked : Revoked (handle crypto options op world).2 id) :
    Revoked world id ∨ ∃ ts,
      did op (handle crypto options op world).1 = did (.revoke id ts) (.ok ()) := by
  obtain ⟨current, known, stamped⟩ := revoked
  have step := @rowStep crypto options world id op
  rw [known] at step
  generalize acted : did op (handle crypto options op world).1 = action at step ⊢
  generalize earlier : world.records.get id = before at step
  cases step with
  | same same => exact .inl ⟨current, earlier.trans same.symm, stamped⟩
  | put _ put =>
    cases put
    rw [born _ (called_inj acted).1] at stamped
    cases stamped
  | revoked => exact .inr ⟨_, rfl⟩
  | used found changed =>
    cases changed
    exact .inl ⟨_, earlier.trans found, stamped⟩

end Steps

section Runs

variable {ι : Type} [DecidableEq ι] {crypto : Crypto} {options : VerifierOptions}
variable {tasks : ι → Task} {origin : World} {pool : Service ι}

structure Tracked (origin : World) (pool : Service ι) : Prop where
  keyed : ∀ id record, pool.store.records.get id = some record → record.id = id
  hashed : ∀ id record, pool.store.records.get id = some record →
    Digest record.hashHex
  tells : ∀ process, ∀ action ∈ pool.trace process, Tells origin pool.store action
  uuids : pool.store.uuids = origin.uuids
  later : origin.drawn ≤ pool.store.drawn
  minted : ∀ id record, pool.store.records.get id = some record →
    (∃ old, origin.records.get id = some old) ∨
      ∃ process record answer, did (.put record) answer ∈ pool.trace process ∧
        record.id = id
  single : ∀ process other uuid, did .randomUUID uuid ∈ pool.trace process →
    did .randomUUID uuid ∈ pool.trace other → process = other

abbrev Heeding (tasks : ι → Task) (pool : Service ι) : Prop :=
  pool.Heeds (fun process => (tasks process).asks) fun process => (tasks process).ends

abbrev Asked (tasks : ι → Task) (pool : Service ι) : Prop :=
  pool.Entitled fun process => (tasks process).asks

omit [DecidableEq ι] in
theorem Tracked.start {world : World} (ready : world.Ready options) :
    Tracked world (Service.start options tasks world) where
  keyed := ready.keyed
  hashed := ready.hashed
  tells := by
    intro process action listed
    cases listed
  uuids := rfl
  later := le_rfl
  minted := fun id record known => .inl ⟨record, known⟩
  single := by
    intro process other uuid listed
    cases listed

omit [DecidableEq ι] in
theorem Tracked.put_fresh (tracked : Tracked origin pool)
    (ready : origin.Ready options) (asked : Asked tasks pool) {process : ι}
    {record : AuthTokenRecord}
    (asks : (tasks process).asks (pool.trace process) (.put record)) :
    pool.store.records.get record.id = none := by
  obtain ⟨drew, -, first, -⟩ := asks
  cases known : pool.store.records.get record.id with
  | none => rfl
  | some =>
    rcases tracked.minted _ _ known with ⟨older, present⟩ | ⟨other, put, answer, listed, same⟩
    · obtain ⟨draw, low, -, uuid⟩ := tracked.tells _ _ drew
      rw [uuid, ready.fresh draw low] at present
      cases present
    · obtain ⟨before, ⟨otherDrew, -⟩, kept⟩ := asked.mem listed
      rw [same] at otherDrew
      have own := tracked.single _ _ _ drew (kept _ otherDrew)
      subst own
      exact absurd listed (first put answer)

theorem Tracked.called (tracked : Tracked origin pool) (ready : origin.Ready options)
    (asked : Asked tasks pool) {process : ι} {op : AuthOp}
    (asks : (tasks process).asks (pool.trace process) op)
    {rest : AuthProgram Outcome} :
    let handled := handle crypto options op pool.store
    Tracked origin (pool.advance process rest (did op handled.1) handled.2) := by
  intro handled
  have fresh : ∀ record, op = .put record → pool.store.records.get record.id = none := by
    rintro record rfl
    exact tracked.put_fresh ready asked asks
  have keeps : Keeps pool.store handled.2 := keeps_of_handle fresh
  have known : ∀ id ts, op = .revoke id ts →
      ∃ current, pool.store.records.get id = some current := by
    rintro id ts rfl
    obtain ⟨-, ⟨record, listed⟩, -⟩ := asks
    obtain ⟨-, current, found, -⟩ := tracked.tells _ _ listed
    exact ⟨current, found⟩
  have told : Tells origin handled.2 (did op handled.1) :=
    tells_of_handle tracked.keyed tracked.later tracked.uuids known
  have step : ∀ id, RowStep id (pool.store.records.get id) (handled.2.records.get id)
      (did op handled.1) := fun id => rowStep id op
  refine ⟨?_, ?_, ?_, ?_, ?_, ?_, ?_⟩
  · intro id record stored
    have here := step id
    change handled.2.records.get id = some record at stored
    generalize did op handled.1 = action at here
    rw [stored] at here
    generalize earlier : pool.store.records.get id = before at here
    cases here with
    | same same => exact tracked.keyed _ _ (earlier.trans same.symm)
    | put own put => cases put; exact own
    | revoked found stamped =>
      have old := tracked.keyed _ _ (earlier.trans found)
      cases stamped
      exact old
    | used found stamped =>
      have old := tracked.keyed _ _ (earlier.trans found)
      cases stamped
      exact old
  · intro id record stored
    have here := step id
    change handled.2.records.get id = some record at stored
    rw [stored] at here
    generalize acted : did op handled.1 = action at here
    generalize earlier : pool.store.records.get id = before at here
    cases here with
    | same same => exact tracked.hashed _ _ (earlier.trans same.symm)
    | put _ put =>
      cases put
      obtain ⟨rfl, -⟩ := called_inj acted
      obtain ⟨-, -, -, pepper, raw, listed⟩ := asks
      exact tracked.tells _ _ listed
    | revoked found stamped =>
      have old := tracked.hashed _ _ (earlier.trans found)
      cases stamped
      exact old
    | used found stamped =>
      have old := tracked.hashed _ _ (earlier.trans found)
      cases stamped
      exact old
  · intro other action listed
    rcases Pool.mem_trace_advance.mp listed with before | ⟨-, rfl⟩
    · exact (tracked.tells _ _ before).mono keeps
    · exact told
  · exact (generators op).2.trans tracked.uuids
  · exact tracked.later.trans keeps.drawn
  · intro id record stored
    have here := step id
    change handled.2.records.get id = some record at stored
    rw [stored] at here
    have older : ∀ {record}, pool.store.records.get id = some record →
        (∃ old, origin.records.get id = some old) ∨
          ∃ other record answer, did (.put record) answer ∈
            (pool.advance process rest (did op handled.1) handled.2).trace other ∧
              record.id = id := by
      intro record known
      rcases tracked.minted _ _ known with old | ⟨other, put, answer, listed, own⟩
      · exact .inl old
      · exact .inr ⟨other, put, answer, Pool.mem_trace_advance.mpr (.inl listed), own⟩
    generalize acted : did op handled.1 = action at here older ⊢
    generalize earlier : pool.store.records.get id = before at here
    cases here with
    | same same => exact older (earlier.trans same.symm)
    | put own =>
      exact .inr ⟨process, _, _, Pool.mem_trace_advance.mpr (.inr ⟨rfl, rfl⟩), own⟩
    | revoked found => exact older (earlier.trans found)
    | used found => exact older (earlier.trans found)
  · have new : ∀ {other : ι} {uuid : String}, did .randomUUID uuid ∈ pool.trace other →
        did .randomUUID uuid ≠ did op handled.1 := by
      intro other uuid listed same
      obtain ⟨draw, -, high, old⟩ := tracked.tells _ _ listed
      obtain ⟨rfl, drawn⟩ := called_inj same
      have drawn := eq_of_heq drawn
      change uuid = pool.store.uuids pool.store.drawn at drawn
      rw [old, tracked.uuids] at drawn
      exact absurd (ready.distinct drawn) (Nat.ne_of_lt high)
    intro one other uuid first second
    rcases Pool.mem_trace_advance.mp first with before | ⟨rfl, here⟩
    · rcases Pool.mem_trace_advance.mp second with before' | ⟨-, here'⟩
      · exact tracked.single _ _ _ before before'
      · exact absurd here' (new before)
    · rcases Pool.mem_trace_advance.mp second with before' | ⟨rfl, -⟩
      · exact absurd here (new before')
      · rfl

theorem Tracked.told (tracked : Tracked origin pool) {process : ι}
    {event : AuthAuditEvent} {rest : AuthProgram Outcome} :
    Tracked origin (pool.advance process rest (.told event) pool.store) := by
  have earlier : ∀ {other : ι} {op : AuthOp} {answer : op.Answer},
      did op answer ∈ (pool.advance process rest (.told event) pool.store).trace other →
        did op answer ∈ pool.trace other := by
    intro other op answer listed
    rcases Pool.mem_trace_advance.mp listed with before | ⟨-, same⟩
    · exact before
    · cases same
  refine ⟨tracked.keyed, tracked.hashed, ?_, tracked.uuids, tracked.later, ?_, ?_⟩
  · intro other action listed
    rcases Pool.mem_trace_advance.mp listed with before | ⟨-, rfl⟩
    · exact tracked.tells _ _ before
    · trivial
  · intro id record known
    rcases tracked.minted _ _ known with old | ⟨other, put, answer, listed, own⟩
    · exact .inl old
    · exact .inr ⟨other, put, answer, Pool.mem_trace_advance.mpr (.inl listed), own⟩
  · intro one other uuid first second
    exact tracked.single _ _ _ (earlier first) (earlier second)

def Withdrawn (tasks : ι → Task) (id : String) (pool : Service ι) : Prop :=
  ∃ process hashHex, (tasks process).target = some id ∧
    did (.invalidate hashHex) () ∈ pool.trace process ∧
    ∀ ts error, did (.revoke id ts) (.error error) ∉ pool.trace process

/-- The revocation is over, or was before the run. -/
def Settled (tasks : ι → Task) (origin : World) (id : String) (pool : Service ι) :
    Prop :=
  Revoked origin id ∨ ∃ process, (tasks process).target = some id ∧
    Carried id (pool.trace process)

structure Followed (tasks : ι → Task) (origin : World) (id : String)
    (pool : Service ι) : Prop where
  entries : ∀ key entry, entryAt pool.store key = some entry →
    entry.value.token.tokenId = id →
      (∃ current, pool.store.records.get id = some current ∧
        current.hashHex = key) ∧
      ¬ Withdrawn tasks id pool ∧ ¬ Revoked origin id
  cause : Revoked pool.store id → Revoked origin id ∨
    ∃ process ts, did (.revoke id ts) (.ok ()) ∈ pool.trace process
  reads : Revoked origin id → ∀ process record,
    did (.get id) (.ok (some record)) ∈ pool.trace process →
      record.revokedAt.isSome = true
  stays : Revoked origin id → Revoked pool.store id
  early : ∀ process, tasks process = .revoke id →
    FoundRevoked id (pool.trace process) → Settled tasks origin id pool

/-- No verdict is cached behind the back of a revocation: an acceptance is not
stored once a revocation of its token has told the verifier, and a revocation
does not take for done what a rotation has yet to tell the verifier. -/
structure Orderly (tasks : ι → Task) (pool : Service ι) (process : ι) : Prop where
  caching : ∀ record hashHex tokenId call next,
    pool.rest process = .call (.conclude (some record) hashHex tokenId call) next →
      record.revokedAt = none → ¬ Withdrawn tasks tokenId pool
  waiting : ∀ id next, tasks process = .revoke id → pool.trace process = [] →
    pool.rest process = .call (.get id) next → Revoked pool.store id →
      ∀ other ts, did (.revoke id ts) (.ok ()) ∈ pool.trace other →
        ∃ hashHex, did (.invalidate hashHex) () ∈ pool.trace other

theorem toHex_length (bytes : Bytes) :
    (Bytes.toHex bytes).toList.length = 2 * bytes.length := by
  unfold Bytes.toHex
  rw [String.toList_ofList]
  induction bytes with
  | nil => rfl
  | cons byte rest ih =>
    rw [List.flatMap_cons, List.length_append, ih, List.length_cons]
    simp only [List.length_cons, List.length_nil]
    omega

theorem Digest.hexText {hashHex : String} (digest : Digest hashHex) :
    hexText hashHex = true := by
  obtain ⟨bytes, length, rfl⟩ := digest
  unfold Auth.hexText
  rw [toHex_length, length, Bool.and_eq_true, List.all_eq_true]
  refine ⟨rfl, ?_⟩
  unfold Bytes.toHex
  rw [String.toList_ofList]
  have each : ∀ value, value < 16 → (digit (Nat.digitChar value) ||
      decide ('a' ≤ Nat.digitChar value ∧ Nat.digitChar value ≤ 'f')) = true := by
    decide
  intro char listed
  obtain ⟨byte, -, here⟩ := List.mem_flatMap.mp listed
  have bound := byte.toNat_lt
  simp only [List.mem_cons, List.not_mem_nil, or_false] at here
  rcases here with rfl | rfl
  · exact each _ (by omega)
  · exact each _ (Nat.mod_lt _ (by omega))

theorem Digest.equal {one other : String} (first : Digest one) (second : Digest other)
    (same : timingSafeEqualHex one other = true) : one = other := by
  obtain ⟨bytes, -, rfl⟩ := first
  obtain ⟨bytes', -, rfl⟩ := second
  unfold timingSafeEqualHex at same
  simp only [Bytes.fromHex_toHex, Bool.and_eq_true, decide_eq_true_eq] at same
  rw [same.2]

omit [DecidableEq ι] in
theorem Tracked.located (tracked : Tracked origin pool) {process : ι}
    {hashHex tokenId : String}
    (located : Located hashHex tokenId (pool.trace process)) (digest : Digest hashHex) :
    ∃ current, pool.store.records.get tokenId = some current ∧
      current.hashHex = hashHex := by
  obtain ⟨record, equal, rfl, found⟩ := located
  have stored : Stored pool.store record record.id := by
    rcases found with found | ⟨records, listed, found⟩
    · exact tracked.tells _ _ found
    · exact tracked.tells _ _ found record listed
  obtain ⟨-, current, known, hash, -⟩ := stored
  refine ⟨current, known, hash.trans ?_⟩
  exact Digest.equal (hash ▸ tracked.hashed _ _ known) digest equal

omit [DecidableEq ι] in
theorem Asked.withdrawn (asked : Asked tasks pool) {process : ι} {id : String}
    (target : (tasks process).target = some id)
    (carried : Carried id (pool.trace process)) : Withdrawn tasks id pool := by
  obtain ⟨⟨ts, revoked⟩, hashHex, told⟩ := carried
  refine ⟨process, hashHex, target, told, ?_⟩
  intro ts' error refused
  have apart : did (.revoke id ts) (.ok ()) ≠ did (.revoke id ts') (.error error) := by
    intro same
    obtain ⟨ops, answers⟩ := called_inj same
    cases ops
    cases eq_of_heq answers
  rcases asked.order revoked refused apart with
    ⟨before, asks, listed⟩ | ⟨before, asks, listed⟩
  · exact asks.2.2 _ _ listed
  · exact asks.2.2 _ _ listed

variable {id : String}

omit [DecidableEq ι] in
theorem Followed.clear (followed : Followed tasks origin id pool)
    (asked : Asked tasks pool) (settled : Settled tasks origin id pool)
    {key : String} {entry : CacheEntry CachedAuth}
    (stored : entryAt pool.store key = some entry) :
    entry.value.token.tokenId ≠ id := by
  intro own
  obtain ⟨-, standing, active⟩ := followed.entries _ _ stored own
  rcases settled with before | ⟨process, target, carried⟩
  · exact active before
  · exact standing (asked.withdrawn target carried)

theorem withdrawn_advance {process : ι} {action : AuthAction}
    {rest : AuthProgram Outcome} {store : World}
    (withdrawn : Withdrawn tasks id (pool.advance process rest action store)) :
    Withdrawn tasks id pool ∨ ∃ hashHex, action = did (.invalidate hashHex) () ∧
      (tasks process).target = some id := by
  obtain ⟨other, hashHex, target, told, accepted⟩ := withdrawn
  rcases Pool.mem_trace_advance.mp told with before | ⟨rfl, rfl⟩
  · refine .inl ⟨other, hashHex, target, before, ?_⟩
    intro ts error refused
    exact accepted ts error (Pool.mem_trace_advance.mpr (.inl refused))
  · exact .inr ⟨hashHex, rfl, target⟩

theorem Settled.advance {origin : World} (settled : Settled tasks origin id pool)
    {process : ι} {action : AuthAction} {rest : AuthProgram Outcome} {store : World} :
    Settled tasks origin id (pool.advance process rest action store) := by
  rcases settled with before | ⟨other, target, ⟨ts, revoked⟩, hashHex, told⟩
  · exact .inl before
  · exact .inr ⟨other, target, ⟨ts, Pool.mem_trace_advance.mpr (.inl revoked)⟩,
      hashHex, Pool.mem_trace_advance.mpr (.inl told)⟩

omit [DecidableEq ι] in
theorem Followed.start {world : World} (ready : world.Ready options) :
    Followed tasks world id (Service.start options tasks world) where
  entries := by
    intro key entry stored
    rw [entryAt, Service.start, Pool.start, ready.verifier] at stored
    cases stored
  cause := .inl
  reads := by
    intro _ process record listed
    cases listed
  stays := fun revoked => revoked
  early := by
    rintro process - ⟨record, first, -⟩
    cases first

/-- The cache holds only what is stored, and nothing that was withdrawn. -/
theorem Followed.entries_called (followed : Followed tasks origin id pool)
    (tracked : Tracked origin pool) {process : ι} {op : AuthOp}
    {next : op.Answer → AuthProgram Outcome}
    (asks : (tasks process).asks (pool.trace process) op)
    (waiting : pool.rest process = .call op next)
    (orderly : Orderly tasks pool process)
    (keeps : Keeps pool.store (handle crypto options op pool.store).2)
    {rest : AuthProgram Outcome} {key : String} {entry : CacheEntry CachedAuth}
    (stored : entryAt (handle crypto options op pool.store).2 key = some entry)
    (own : entry.value.token.tokenId = id) :
    (∃ current, (handle crypto options op pool.store).2.records.get id = some current ∧
        current.hashHex = key) ∧ ¬ Withdrawn tasks id (pool.advance process rest
        (did op (handle crypto options op pool.store).1)
        (handle crypto options op pool.store).2) ∧ ¬ Revoked origin id := by
  rcases entryStep op stored with before | ⟨record, tokenId, call, rfl, active, named⟩
  · obtain ⟨⟨current, known, hash⟩, standing, valid⟩ := followed.entries _ _ before own
    obtain ⟨later, found, -, same, -⟩ := keeps.rows _ _ known
    refine ⟨⟨later, found, same.trans hash⟩, fun withdrawn => ?_, valid⟩
    rcases withdrawn_advance withdrawn with earlier | ⟨hashHex, told, target⟩
    · exact standing earlier
    · obtain ⟨rfl, -⟩ := called_inj told
      obtain ⟨id', record, target', read, rfl⟩ := asks
      rw [target] at target'
      cases target'
      obtain ⟨-, current', known', hash', -⟩ := tracked.tells _ _ read
      rw [known] at known'
      cases known'
      have text : hexText record.hashHex = true :=
        (hash' ▸ tracked.hashed _ _ known).hexText
      rw [handle, World.invalidate, if_pos text] at stored
      exact (dropCached_entry stored).1 (hash.symm.trans hash')
  · obtain ⟨read, ⟨pepper, raw, digest⟩, located, -⟩ := asks
    obtain ⟨named', -⟩ := tracked.tells _ _ read
    have same : tokenId = id := named'.symm.trans (named.symm.trans own)
    subst same
    obtain ⟨current, known, hash⟩ :=
      tracked.located located (tracked.tells _ _ digest)
    obtain ⟨later, found, -, same, -⟩ := keeps.rows _ _ known
    refine ⟨⟨later, found, same.trans hash⟩, fun withdrawn => ?_, fun before => ?_⟩
    · rcases withdrawn_advance withdrawn with earlier | ⟨hashHex, told, -⟩
      · exact orderly.caching _ _ _ _ _ waiting active earlier
      · cases (called_inj told).1
    · have revoked := followed.reads before _ _ read
      rw [active] at revoked
      cases revoked

theorem Followed.called (followed : Followed tasks origin id pool)
    (tracked : Tracked origin pool) (ready : origin.Ready options)
    (asked : Asked tasks pool) {process : ι} {op : AuthOp}
    {next : op.Answer → AuthProgram Outcome}
    (asks : (tasks process).asks (pool.trace process) op)
    (waiting : pool.rest process = .call op next)
    (orderly : Orderly tasks pool process) {rest : AuthProgram Outcome} :
    Followed tasks origin id (pool.advance process rest
      (did op (handle crypto options op pool.store).1)
      (handle crypto options op pool.store).2) := by
  have fresh : ∀ record, op = .put record → pool.store.records.get record.id = none := by
    rintro record rfl
    exact tracked.put_fresh ready asked asks
  have keeps : Keeps pool.store (handle crypto options op pool.store).2 :=
    keeps_of_handle fresh
  refine ⟨?_, ?_, ?_, ?_, ?_⟩
  · intro key entry stored own
    exact followed.entries_called tracked asks waiting orderly keeps stored own
  · intro revoked
    have born : ∀ record, op = .put record → record.revokedAt = none := by
      rintro record rfl
      exact asks.2.1
    rcases revoked_of_handle born revoked with before | ⟨ts, acted⟩
    · refine (followed.cause before).imp_right ?_
      rintro ⟨other, ts, listed⟩
      exact ⟨other, ts, Pool.mem_trace_advance.mpr (.inl listed)⟩
    · exact .inr ⟨process, ts, Pool.mem_trace_advance.mpr (.inr ⟨rfl, acted.symm⟩)⟩
  · intro before other record listed
    rcases Pool.mem_trace_advance.mp listed with earlier | ⟨rfl, same⟩
    · exact followed.reads before _ _ earlier
    · obtain ⟨rfl, answered⟩ := called_inj same
      obtain ⟨current, known, stamped⟩ := followed.stays before
      have found := (storeCall_ok (eq_of_heq answered).symm).1
      rw [known] at found
      cases found
      exact stamped
  · exact fun before => keeps.revoked (followed.stays before)
  · rintro other task ⟨record, first, stamped⟩
    by_cases earlier : FoundRevoked id (pool.trace other)
    · exact (followed.early other task earlier).advance
    · by_cases same : other = process
      · subst same
        simp only [Pool.advance, Function.update_self] at first
        cases past : pool.trace other with
        | cons =>
          rw [past] at first
          exact absurd ⟨record, by rw [past]; exact first, stamped⟩ earlier
        | nil =>
          rw [past] at first
          obtain ⟨rfl, answered⟩ := called_inj (Option.some.inj first)
          have found := (storeCall_ok (eq_of_heq answered)).1
          have revoked : Revoked pool.store id := ⟨record, found.symm, stamped⟩
          refine Settled.advance ?_
          refine (followed.cause revoked).imp_right ?_
          rintro ⟨rotating, ts, listed⟩
          obtain ⟨before, ⟨target, -⟩, -⟩ := asked.mem listed
          exact ⟨rotating, target, ⟨ts, listed⟩,
            orderly.waiting id next task past waiting revoked rotating ts listed⟩
      · simp only [Pool.advance, Function.update_of_ne same] at first
        exact absurd ⟨record, first, stamped⟩ earlier

structure Guarded (tasks : ι → Task) (origin : World) (id : String)
    (pool : Service ι) : Prop where
  heeding : Heeding tasks pool
  asked : Asked tasks pool
  tracked : Tracked origin pool
  followed : Followed tasks origin id pool

omit [DecidableEq ι] in
theorem Guarded.start {world : World} (ready : world.Ready options) :
    Guarded tasks world id (Service.start options tasks world) where
  heeding := fun process => (tasks process).heeds options
  asked := by
    intro process before op answer after split
    simp [Service.start, Pool.start] at split
  tracked := .start ready
  followed := .start ready

theorem Followed.told (followed : Followed tasks origin id pool) {process : ι}
    {event : AuthAuditEvent} {rest : AuthProgram Outcome} :
    Followed tasks origin id (pool.advance process rest (.told event) pool.store) := by
  have earlier : ∀ {other : ι} {op : AuthOp} {answer : op.Answer},
      did op answer ∈ (pool.advance process rest (.told event) pool.store).trace other →
        did op answer ∈ pool.trace other := by
    intro other op answer listed
    rcases Pool.mem_trace_advance.mp listed with before | ⟨-, same⟩
    · exact before
    · cases same
  refine ⟨?_, ?_, ?_, followed.stays, ?_⟩
  · intro key entry stored own
    obtain ⟨known, standing, active⟩ := followed.entries key entry stored own
    refine ⟨known, fun withdrawn => ?_, active⟩
    rcases withdrawn_advance withdrawn with before | ⟨hashHex, same, -⟩
    · exact standing before
    · cases same
  · intro revoked
    refine (followed.cause revoked).imp_right ?_
    rintro ⟨other, ts, listed⟩
    exact ⟨other, ts, Pool.mem_trace_advance.mpr (.inl listed)⟩
  · intro before other record listed
    exact followed.reads before other record (earlier listed)
  · intro other task found
    refine (followed.early other task ?_).advance
    by_cases same : other = process
    · subst same
      obtain ⟨record, first, stamped⟩ := found
      simp only [Pool.advance, Function.update_self] at first
      cases past : pool.trace other with
      | nil =>
        rw [past] at first
        cases first
      | cons =>
        rw [past] at first
        exact ⟨record, first, stamped⟩
    · simpa [Pool.advance, Function.update_of_ne same] using found

theorem Guarded.move (guarded : Guarded tasks origin id pool)
    (ready : origin.Ready options) {process : ι}
    (orderly : Orderly tasks pool process) :
    Guarded tasks origin id (pool.move (handle crypto options) process) := by
  have own := guarded.heeding process
  cases waiting : pool.rest process with
  | done => rwa [Pool.move_done waiting]
  | fail => rwa [Pool.move_fail waiting]
  | emit =>
    refine ⟨guarded.heeding.move process,
      guarded.asked.move guarded.heeding process, ?_, ?_⟩
    · rw [Pool.move_emit waiting]
      exact guarded.tracked.told
    · rw [Pool.move_emit waiting]
      exact guarded.followed.told
  | call =>
    rw [waiting] at own
    refine ⟨guarded.heeding.move process,
      guarded.asked.move guarded.heeding process, ?_, ?_⟩
    · rw [Pool.move_call waiting]
      exact guarded.tracked.called ready guarded.asked own.1
    · rw [Pool.move_call waiting]
      exact guarded.followed.called guarded.tracked ready guarded.asked own.1
        waiting orderly

structure Late (tasks : ι → Task) (origin : World) (id : String) (late : ι)
    (pool : Service ι) : Prop where
  guarded : Guarded tasks origin id pool
  settled : Settled tasks origin id pool
  revoked : Revoked pool.store id
  refused : ∀ action ∈ pool.trace late, ∀ token, acceptance action = some token →
    token.tokenId ≠ id
  reads : ∀ record, did (.get id) (.ok (some record)) ∈ pool.trace late →
    record.revokedAt.isSome = true

omit [DecidableEq ι] in
/-- With the revocation settled, no step of the verifier accepts the token. -/
theorem Late.step {verifying : ι} (late : Late tasks origin id verifying pool)
    {op : AuthOp} (asks : (tasks verifying).asks (pool.trace verifying) op)
    {token : VerifiedToken}
    (accepted : acceptance (did op (handle crypto options op pool.store).1) =
      some token) : token.tokenId ≠ id := by
  cases op with
  | beginVerify rawToken ip =>
    generalize answered : (handle crypto options (.beginVerify rawToken ip)
      pool.store).1 = answer at accepted
    rcases answer with _ | (token' | _) | _
    · cases accepted
    · exact absurd answered beginVerify_refuses
    · cases accepted
    · cases accepted
  | consultCache hashHex call =>
    generalize answered : (handle crypto options (.consultCache hashHex call)
      pool.store).1 = answer at accepted
    rcases answer with _ | token' | _
    · cases accepted
    · cases accepted
      obtain ⟨entry, stored, rfl⟩ := consultCache_ok answered
      exact late.guarded.followed.clear late.guarded.asked late.settled stored
    · cases accepted
  | refuseUnknown => cases accepted
  | checkTokenLockout tokenId call =>
    generalize answered : (handle crypto options (.checkTokenLockout tokenId call)
      pool.store).1 = answer at accepted
    rcases answer with _ | token' | _
    · cases accepted
    · exact absurd answered checkTokenLockout_refuses
    · cases accepted
  | conclude record hashHex tokenId call =>
    generalize answered : (handle crypto options
      (.conclude record hashHex tokenId call) pool.store).1 = answer at accepted
    rcases answer with token' | _
    · cases accepted
      obtain ⟨found, rfl, active, named⟩ := conclude_ok answered
      intro own
      obtain ⟨read, -⟩ := asks
      obtain ⟨named', -⟩ := late.guarded.tracked.tells _ _ read
      have same : tokenId = id := named'.symm.trans (named.symm.trans own)
      subst same
      have revoked := late.reads _ read
      rw [active] at revoked
      cases revoked
    · cases accepted
  | _ => cases accepted

theorem Late.move {verifying : ι} (late : Late tasks origin id verifying pool)
    (ready : origin.Ready options) {process : ι}
    (orderly : Orderly tasks pool process) :
    Late tasks origin id verifying (pool.move (handle crypto options) process) := by
  have guarded' : Guarded tasks origin id (pool.move (handle crypto options) process) :=
    late.guarded.move ready orderly
  have own := late.guarded.heeding process
  cases waiting : pool.rest process with
  | done => rwa [Pool.move_done waiting]
  | fail => rwa [Pool.move_fail waiting]
  | emit =>
    rw [Pool.move_emit waiting] at guarded' ⊢
    refine ⟨guarded', late.settled.advance, late.revoked, ?_, ?_⟩
    · intro action listed token accepted
      rcases Pool.mem_trace_advance.mp listed with before | ⟨-, rfl⟩
      · exact late.refused _ before _ accepted
      · cases accepted
    · intro record listed
      rcases Pool.mem_trace_advance.mp listed with before | ⟨-, same⟩
      · exact late.reads _ before
      · cases same
  | call op =>
    rw [waiting] at own
    have fresh : ∀ record, op = .put record →
        pool.store.records.get record.id = none := by
      rintro record rfl
      exact late.guarded.tracked.put_fresh ready late.guarded.asked own.1
    have keeps : Keeps pool.store (handle crypto options op pool.store).2 :=
      keeps_of_handle fresh
    rw [Pool.move_call waiting] at guarded' ⊢
    refine ⟨guarded', late.settled.advance, keeps.revoked late.revoked, ?_, ?_⟩
    · intro action listed token accepted
      rcases Pool.mem_trace_advance.mp listed with before | ⟨rfl, rfl⟩
      · exact late.refused _ before _ accepted
      · exact late.step own.1 accepted
    · intro record listed
      rcases Pool.mem_trace_advance.mp listed with before | ⟨rfl, same⟩
      · exact late.reads _ before
      · obtain ⟨rfl, answered⟩ := called_inj same
        obtain ⟨current, known, stamped⟩ := late.revoked
        have found := (storeCall_ok (eq_of_heq answered).symm).1
        rw [known] at found
        cases found
        exact stamped

/-- A revocation or rotation has resolved. -/
def resolved : AuthProgram Outcome → Bool
  | .done (.revoked (some _)) => true
  | .done (.rotated _) => true
  | _ => false

omit [DecidableEq ι] in
theorem Guarded.settled_of_resolved (guarded : Guarded tasks origin id pool)
    {process : ι} (target : (tasks process).target = some id)
    (past : resolved (pool.rest process) = true) :
    Settled tasks origin id pool ∧ Revoked pool.store id := by
  have of_carried (carried : Carried id (pool.trace process)) :
      Settled tasks origin id pool ∧ Revoked pool.store id := by
    have ⟨⟨ts, listed⟩, _⟩ := carried
    exact ⟨.inr ⟨process, target, carried⟩, guarded.tracked.tells _ _ listed⟩
  unfold resolved at past
  split at past
  · rename_i token ended
    obtain ⟨id', task, found⟩ := guarded.heeding.ended ended
    have same : id' = id := by
      rw [task] at target
      exact Option.some.inj target
    subst same
    rcases found with found | carried
    · refine ⟨guarded.followed.early process task found, ?_⟩
      obtain ⟨record, first, stamped⟩ := found
      obtain ⟨-, current, known, -, stays⟩ :=
        guarded.tracked.tells _ _ (List.mem_of_mem_head? first)
      exact ⟨current, known, stays stamped⟩
    · exact of_carried carried
  · rename_i token ended
    obtain ⟨id', target', carried⟩ := guarded.heeding.ended ended
    rw [target] at target'
    cases target'
    exact of_carried carried
  · cases past

/-- The pool a schedule leads to from the start of the tasks. -/
def Service.after (crypto : Crypto) (options : VerifierOptions) (tasks : ι → Task)
    (world : World) (schedule : List ι) : Service ι :=
  (Service.start options tasks world).play (handle crypto options) schedule

/-- Once a revocation or rotation has resolved, no verification that starts
afterwards accepts its token, in every run whose moves are orderly. -/
theorem revocation_takes_effect (crypto : Crypto) (options : VerifierOptions)
    (tasks : ι → Task) (world : World) (ready : world.Ready options)
    (before after : List ι)
    (orderly : (Service.start options tasks world).Along (handle crypto options)
      (Orderly tasks) (before ++ after)) (id : String) (revoking verifying : ι)
    (target : (tasks revoking).target = some id) (past : resolved
      ((Service.after crypto options tasks world before).rest revoking) = true)
    (later : (Service.after crypto options tasks world before).trace verifying = [])
    (token : VerifiedToken)
    (accepted : (Service.after crypto options tasks world (before ++ after)).rest
      verifying = .done (.verified (.ok token))) : token.tokenId ≠ id := by
  obtain ⟨first, second⟩ := Pool.along_append.mp orderly
  have guarded : Guarded tasks world id
      (Service.after crypto options tasks world before) :=
    Pool.play_keeps (fun pool process holds meets => holds.move ready meets) first
      (.start ready)
  obtain ⟨settled, revoked⟩ := guarded.settled_of_resolved target past
  have began : Late tasks world id verifying
      (Service.after crypto options tasks world before) :=
    ⟨guarded, settled, revoked, by simp [later], by simp [later]⟩
  have ended : Late tasks world id verifying
      (Service.after crypto options tasks world (before ++ after)) := by
    rw [Service.after, Pool.play_append]
    exact Pool.play_keeps (fun pool process holds meets => holds.move ready meets)
      second began
  obtain ⟨action, listed, accepting⟩ := ended.guarded.heeding.ended accepted
  exact ended.refused action listed token accepting

end Runs

namespace RevocationSample

def crypto : Crypto where
  hmac := fun _ raw => (asciiBytes raw.toList ++ List.replicate 32 0).take 32
  hmac_length := by simp
  assess := fun pepper => ⟨32 ≤ pepper.length, pepper.length, none⟩

def options : VerifierOptions where
  pepper := List.replicate 32 1
  indexed := true

def raw : String := "gph_live_v1_yhjskwdA6OZ1AL1YmHWZWm8LLG7HjnuCA2j5rOw8Xp1_3sRzl1"

def otherRaw : String := "gph_live_v1_1fJjkkpe9PiTw9KSulA8Ghct30vZz4HpdQ5c5b9cPF1_2dZ9Ea"

def row (id raw : String) : AuthTokenRecord where
  id := id
  hashHex := Bytes.toHex (crypto.hmac options.pepper raw)
  label := none
  scopes := ["agents:read"]
  createdAt := .iso 0
  expiresAt := none
  revokedAt := none
  lastUsedAt := none

def world : World where
  clock := 1000
  records := (OrderedMap.empty.set "t" (row "t" raw)).set "s" (row "s" otherRaw)
  verifier := .new options
  invalidating := []
  uuids := fun draw => String.ofList (List.replicate (draw + 2) 'u')
  entropy := fun _ => ⟨List.replicate 32 0, rfl⟩
  drawn := 0
  rejects := fun _ => false
  storeCalls := 0
  log := []

theorem get_world (id : String) : world.records.get id =
    if id = "s" then some (row "s" otherRaw)
    else if id = "t" then some (row "t" raw) else none := by
  simp only [world, OrderedMap.get_set, OrderedMap.get_empty]

theorem ready : world.Ready options where
  keyed := by
    intro id record known
    rw [get_world] at known
    split at known
    · rename_i same
      cases known
      exact same.symm
    · split at known
      · rename_i same
        cases known
        exact same.symm
      · cases known
  hashed := by
    intro id record known
    rw [get_world] at known
    split at known
    · cases known
      exact ⟨_, crypto.hmac_length _ _, rfl⟩
    · split at known
      · cases known
        exact ⟨_, crypto.hmac_length _ _, rfl⟩
      · cases known
  verifier := rfl
  distinct := by
    intro one other same
    have lengths := congrArg (fun text => text.toList.length) same
    simpa [world] using lengths
  fresh := by
    intro draw _
    rw [get_world, if_neg, if_neg]
    · intro same
      have lengths := congrArg (fun text => text.toList.length) same
      simp [world] at lengths
    · intro same
      have lengths := congrArg (fun text => text.toList.length) same
      simp [world] at lengths

/-- The token a task has accepted. -/
def accepted : AuthProgram Outcome → Option VerifiedToken
  | .done (.verified (.ok token)) => some token
  | _ => none

theorem of_accepted {rest : AuthProgram Outcome} {token : VerifiedToken}
    (same : accepted rest = some token) : rest = .done (.verified (.ok token)) := by
  unfold accepted at same
  split at same
  · cases same
    rfl
  · cases same

def quiet {ι : Type} [Fintype ι] (tasks : ι → Task) (pool : Service ι)
    (process : ι) : Bool :=
  match pool.rest process with
  | .call (.conclude _ _ tokenId _) _ =>
    decide (∀ other, (tasks other).target ≠ some tokenId)
  | .call (.get id) _ =>
    !(pool.trace process).isEmpty ||
      !((pool.store.records.get id).any fun record => record.revokedAt.isSome)
  | _ => true

theorem orderly_of_quiet {ι : Type} [Fintype ι] {tasks : ι → Task}
    {pool : Service ι} {process : ι} (holds : quiet tasks pool process = true) :
    Orderly tasks pool process where
  caching := by
    rintro record hashHex tokenId call next waiting - ⟨other, -, target, -⟩
    rw [quiet, waiting] at holds
    exact of_decide_eq_true holds other target
  waiting := by
    rintro id next - past waiting ⟨current, known, stamped⟩
    simp [quiet, waiting, past, known, stamped] at holds

/-- The verdict on a row that was read before the revocation reaches the cache
after the verifier was told. -/
def hurried : Fin 3 → Task
  | 0 => .verify raw none
  | 1 => .revoke "t"
  | 2 => .verify raw none

def calm : Fin 2 → Task
  | 0 => .revoke "t"
  | 1 => .verify otherRaw none

end RevocationSample

open RevocationSample in
theorem revoked_token_accepted_from_the_cache :
    ¬ ∀ (ι : Type) [DecidableEq ι] (crypto : Crypto) (options : VerifierOptions)
      (tasks : ι → Task) (world : World) (_ready : world.Ready options)
      (before after : List ι) (id : String) (revoking verifying : ι)
      (_target : (tasks revoking).target = some id) (_over : resolved
        ((Service.after crypto options tasks world before).rest revoking) = true)
      (_later : (Service.after crypto options tasks world before).trace verifying = [])
      (token : VerifiedToken)
      (_accepted : (Service.after crypto options tasks world (before ++ after)).rest
        verifying = .done (.verified (.ok token))), token.tokenId ≠ id := by
  intro claimed
  have played : ((accepted ((Service.after crypto options hurried world
      ([0, 0, 0, 0, 0, 0, 1, 1, 1, 1, 0, 0, 1, 1] ++ [2, 2, 2, 2])).rest 2)).map
        VerifiedToken.tokenId) = some "t" ∧
      resolved ((Service.after crypto options hurried world
        [0, 0, 0, 0, 0, 0, 1, 1, 1, 1, 0, 0, 1, 1]).rest 1) = true ∧
      ((Service.after crypto options hurried world
        [0, 0, 0, 0, 0, 0, 1, 1, 1, 1, 0, 0, 1, 1]).trace 2).isEmpty = true := by
    set_option maxRecDepth 20000 in decide
  obtain ⟨accepting, over', unheard⟩ := played
  obtain ⟨token, same, named⟩ := Option.map_eq_some_iff.mp accepting
  exact claimed (Fin 3) crypto options hurried world ready _ _ "t" 1 2 rfl
    over' (List.isEmpty_iff.mp unheard) token (of_accepted same) named

open RevocationSample in
theorem other_token_still_accepted :
    ∃ token : VerifiedToken, token.tokenId ≠ "t" ∧ token.tokenId = "s" := by
  have played : (Service.start options calm world).Along (handle crypto options)
        (fun pool process => quiet calm pool process = true)
        ([0, 0, 0, 0, 0, 0] ++ [1, 1, 1, 1, 1, 1, 1, 1, 1, 1]) ∧
      ((accepted ((Service.after crypto options calm world
        ([0, 0, 0, 0, 0, 0] ++ [1, 1, 1, 1, 1, 1, 1, 1, 1, 1])).rest 1)).map
          VerifiedToken.tokenId) = some "s" ∧
      resolved ((Service.after crypto options calm world
        [0, 0, 0, 0, 0, 0]).rest 0) = true ∧
      ((Service.after crypto options calm world
        [0, 0, 0, 0, 0, 0]).trace 1).isEmpty = true := by
    set_option maxRecDepth 20000 in decide
  obtain ⟨orderly, accepting, over', unheard⟩ := played
  obtain ⟨token, same, named⟩ := Option.map_eq_some_iff.mp accepting
  refine ⟨token, ?_, named⟩
  exact revocation_takes_effect crypto options calm world ready _ _
    (Pool.along_mono (fun _ _ => orderly_of_quiet) orderly) "t" 0 1 rfl
    over' (List.isEmpty_iff.mp unheard) token (of_accepted same)

end Graphorin.Auth
