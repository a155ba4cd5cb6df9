import Graphorin.Auth.Revocation
import Graphorin.Lib.Contract

namespace Graphorin.Auth

open Graphorin.Lib (Program Handler OrderedMap)

/-! Rotating and rekeying tokens in a world of their own. -/

section Runs

variable {crypto : Crypto} {verifying : VerifierOptions} {world : World}

/-- Where a program that runs alone ends. -/
def Leads (crypto : Crypto) (verifying : VerifierOptions) {α : Type}
    (program : AuthProgram α) (world : World)
    (post : Except AuthError α → World → Prop) : Prop :=
  ∀ past, program.ensures (handle crypto verifying) (fun _ _ => True)
    (fun result final _ => post result final) world past

namespace Leads

variable {α β : Type} {post : Except AuthError β → World → Prop}

theorem done (holds : post (.ok value) world) :
    Leads crypto verifying (.done value) world post :=
  fun _ => holds

theorem fail (holds : post (.error error) world) :
    Leads crypto verifying (.fail error) world post :=
  fun _ => holds

theorem tell {event : AuthAuditEvent} (after : Leads crypto verifying (next ()) world post) :
    Leads crypto verifying (Program.bind (.tell event) next) world post :=
  fun _ => after _

theorem ask {op : AuthOp} {next : op.Answer → AuthProgram β}
    (after : Leads crypto verifying (next (handle crypto verifying op world).1)
      (handle crypto verifying op world).2 post) :
    Leads crypto verifying (Program.bind (ask op) next) world post :=
  fun past => ⟨trivial, after past⟩

variable {next : α → AuthProgram β}

theorem bind (before : Leads crypto verifying first world between)
    (ok : ∀ value after, between (.ok value) after → Leads crypto verifying (next value) after post)
    (failed : ∀ error after, between (.error error) after → post (.error error) after) :
    Leads crypto verifying (first.bind next) world post := by
  intro past
  refine Program.ensures_bind.mpr (Program.ensures_mono ?_ (before past))
  intro result after past held
  cases result with
  | ok value => exact ok value after held past
  | error error => exact failed error after held

theorem ofExcept
    (ok : ∀ value, answer = .ok value → Leads crypto verifying (next value) world post)
    (failed : ∀ error, answer = .error error → post (.error error) world) :
    Leads crypto verifying (Program.bind (.ofExcept answer) next) world post := by
  cases answer with
  | ok value => exact ok value rfl
  | error error => exact fail (failed error rfl)

theorem run (holds : Leads crypto verifying program world post) :
    post (program.run (handle crypto verifying) world).result
      (program.run (handle crypto verifying) world).final :=
  Program.run_of_ensures (holds [])

theorem stored
    (rejected : world.rejects world.storeCalls = true → post (.error .store)
      { world with storeCalls := world.storeCalls + 1 })
    (answered : world.rejects world.storeCalls = false → Leads crypto verifying (next value)
      { world with storeCalls := world.storeCalls + 1, records := records } post) :
    Leads crypto verifying
      (Program.bind (awaiting (world.storeCall value records).1) next)
      (world.storeCall value records).2 post := by
  unfold World.storeCall
  cases faulty : world.rejects world.storeCalls with
  | true => exact fail (rejected faulty)
  | false => exact answered faulty

theorem now {next : Nat → AuthProgram β}
    (after : Leads crypto verifying (next world.clock) world post) :
    Leads crypto verifying (Program.bind (Auth.ask .now) next) world post :=
  .ask after

end Leads

structure Beside (world after : World) : Prop where
  records : after.records = world.records
  drawn : after.drawn = world.drawn
  uuids : after.uuids = world.uuids
  clock : after.clock = world.clock

theorem Leads.informing {β : Type} {post : Except AuthError β → World → Prop}
    {withVerifier : Bool} {hashHex : String} {next : Unit → AuthProgram β}
    (after : ∀ told, Beside world told → Leads crypto verifying (next ()) told post) :
    Leads crypto verifying
      (if withVerifier then Program.bind (Auth.ask (.invalidate hashHex)) next
        else next ()) world post := by
  split
  · refine .ask (after _ ?_)
    rw [handle, World.invalidate]
    split <;> exact ⟨rfl, rfl, rfl, rfl⟩
  · exact after world ⟨rfl, rfl, rfl, rfl⟩

/-- The latest instant a `Date` can denote. -/
def maxInstant : Nat := 8640000000000000

theorem toISOString_ofNat (ms : Nat) :
    toISOString (some (ms : Int)) =
      if ms ≤ maxInstant then .ok (.iso ms) else .error .invalidTime := by
  by_cases fits : ms ≤ maxInstant
  · rw [if_pos fits]
    exact if_pos fits
  · rw [if_neg fits]
    exact if_neg fits

/-- A token as `createToken` mints it and leaves it in the store. -/
structure Minted (options : CreateTokenOptions) (world : World) (token : CreatedToken)
    (final : World) : Prop where
  id : token.record.id = world.uuids (world.drawn + 1)
  scopes : token.record.scopes = options.scopes
  label : token.record.label = options.label
  active : token.record.revokedAt = none
  expires : resolveExpiresAt options world.clock = .ok token.record.expiresAt
  records : final.records = world.records.set token.record.id token.record
  drawn : final.drawn = world.drawn + 2
  uuids : final.uuids = world.uuids

theorem createToken_leads {options : CreateTokenOptions}
    (minting : options.idOverride = none) :
    Leads crypto verifying (createToken options) world fun result final =>
      match result with
      | .ok token => Minted options world token final
      | .error _ => final.records = world.records := by
  unfold createToken
  split
  · exact .fail rfl
  · rw [minting]
    refine .ask ?_
    change Leads _ _ (Program.bind (if _ then _ else _) _) _ _
    split
    · refine .ask (.ofExcept (fun raw _ => ?_) fun _ _ => rfl)
      refine .ask (.ask (.ask ?_))
      refine .ofExcept (fun createdAt _ => ?_) fun _ _ => rfl
      refine .ofExcept (fun expiresAt expires => ?_) fun _ _ => rfl
      refine .ask (.stored (fun _ => rfl) fun _ => .tell (.done ?_))
      exact ⟨rfl, rfl, rfl, rfl, expires, rfl, rfl, rfl⟩
    · exact .fail rfl

/-- A rotation in this world fails before it has stored the revocation. -/
def Withheld (world : World) : Prop :=
  world.rejects world.storeCalls = true ∨ maxInstant < world.clock ∨
    world.rejects (world.storeCalls + 1) = true

def TakenBack (before : AuthTokenRecord) (id : String) (final : World) : Prop :=
  ∃ ts, final.records.get id = some { before with revokedAt := some ts }

/-- The generator gives ids that no row has. -/
def Fresh (world : World) : Prop :=
  ∀ draw, world.drawn ≤ draw → world.records.get (world.uuids draw) = none

structure Replaced (options : RotateTokenOptions) (world : World)
    (existing : AuthTokenRecord) (next : CreatedToken) (final : World) : Prop where
  known : world.records.get options.id = some existing
  id : next.record.id = world.uuids (world.drawn + 1)
  scopes : next.record.scopes = options.scopesOverride.getD existing.scopes
  label : next.record.label = options.label
  active : next.record.revokedAt = none
  expires : resolveExpiresAt (options.created existing) world.clock =
    .ok next.record.expiresAt
  records : ∃ ts, final.records =
    (world.update options.id fun record => { record with revokedAt := some ts }).set
      next.record.id next.record
  drawn : final.drawn = world.drawn + 2
  uuids : final.uuids = world.uuids

theorem rotateToken_leads (options : RotateTokenOptions) (fresh : Fresh world) :
    Leads crypto verifying (rotateToken options) world fun result final =>
      match result with
      | .ok rotated => ¬ Withheld world ∧
          ∃ existing, Replaced options world existing rotated.next final
      | .error _ =>
        (final.records = world.records ∧
            (world.records.get options.id = none ∨ Withheld world)) ∨
          ¬ Withheld world ∧ ∃ existing,
            world.records.get options.id = some existing ∧
              TakenBack existing options.id final := by
  unfold rotateToken
  refine .ask (.stored (fun faulty => .inl ⟨rfl, .inr (.inl faulty)⟩) fun first => ?_)
  cases known : world.records.get options.id with
  | none => exact .fail (.inl ⟨rfl, .inl rfl⟩)
  | some existing =>
    refine .now ?_
    change Leads _ _ (Program.bind
      (.ofExcept (toISOString (some (world.clock : Int)))) _) _ _
    rw [toISOString_ofNat]
    split
    · rename_i timely
      refine .ask (.stored (fun faulty => .inl ⟨rfl, .inr (.inr (.inr faulty))⟩)
        fun second => ?_)
      have revoking : ¬ Withheld world := by
        rintro (faulty | late | faulty)
        · exact absurd (first.symm.trans faulty) (by decide)
        · exact absurd timely (Nat.not_le.mpr late)
        · exact absurd (second.symm.trans faulty) (by decide)
      have stamped : (world.update options.id fun record =>
          { record with revokedAt := some (.iso world.clock) }).get options.id =
            some { existing with revokedAt := some (.iso world.clock) } := by
        rw [get_update, if_pos rfl, known]
        rfl
      refine Leads.informing fun told beside => .bind (createToken_leads rfl) ?_ ?_
      · intro next minted made
        have apart : options.id ≠ next.record.id := by
          intro same
          have none := fresh (world.drawn + 1) (Nat.le_succ _)
          rw [← beside.uuids, ← beside.drawn, ← made.id, ← same, known] at none
          cases none
        refine .ask (.stored (fun _ => .inr ⟨revoking, existing, rfl, .iso world.clock, ?_⟩)
          fun _ => .now (.tell (.done ⟨revoking, existing, ?_⟩)))
        · change minted.records.get options.id = _
          rw [made.records, OrderedMap.get_set, if_neg apart, beside.records]
          exact stamped
        · have minting := made.id
          have expiring := made.expires
          have stocked := made.records
          have drawn := made.drawn
          rw [beside.uuids, beside.drawn] at minting
          rw [beside.clock] at expiring
          rw [beside.records] at stocked
          rw [beside.drawn] at drawn
          exact ⟨known, minting, made.scopes, made.label, made.active, expiring,
            ⟨.iso world.clock, stocked⟩, drawn, made.uuids.trans beside.uuids⟩
      · intro error failed same
        refine .inr ⟨revoking, existing, rfl, .iso world.clock, ?_⟩
        rw [same, beside.records]
        exact stamped
    · rename_i late
      exact .fail (.inl ⟨rfl, .inr (.inr (.inl (Nat.lt_of_not_le late)))⟩)

namespace Replaced

variable {options : RotateTokenOptions} {existing : AuthTokenRecord}
variable {next : CreatedToken} {final : World}

theorem minted (replaced : Replaced options world existing next final)
    (fresh : Fresh world) : world.records.get next.record.id = none := by
  rw [replaced.id]
  exact fresh _ (Nat.le_succ _)

theorem get_next (replaced : Replaced options world existing next final) :
    final.records.get next.record.id = some next.record := by
  obtain ⟨ts, records⟩ := replaced.records
  rw [records, OrderedMap.get_set, if_pos rfl]

theorem get_other (replaced : Replaced options world existing next final)
    {id : String} (old : id ≠ options.id) (new : id ≠ next.record.id) :
    final.records.get id = world.records.get id := by
  obtain ⟨ts, records⟩ := replaced.records
  rw [records, OrderedMap.get_set, if_neg new, get_update, if_neg old]

theorem revoked (replaced : Replaced options world existing next final)
    (fresh : Fresh world) : TakenBack existing options.id final := by
  obtain ⟨ts, records⟩ := replaced.records
  have apart : options.id ≠ next.record.id := by
    intro same
    have none := replaced.minted fresh
    rw [← same, replaced.known] at none
    cases none
  refine ⟨ts, ?_⟩
  rw [records, OrderedMap.get_set, if_neg apart, get_update, if_pos rfl, replaced.known]
  rfl

theorem fresh (replaced : Replaced options world existing next final)
    (fresh : Fresh world) (distinct : Function.Injective world.uuids) : Fresh final := by
  intro draw later
  rw [replaced.uuids]
  rw [replaced.drawn] at later
  have none := fresh draw (by omega)
  rw [replaced.get_other ?_ ?_, none]
  · intro same
    rw [same, replaced.known] at none
    cases none
  · rw [replaced.id]
    intro same
    have equal := distinct same
    omega

end Replaced

structure Successor (record : AuthTokenRecord) (created : CreatedToken)
    (final : World) : Prop where
  stored : final.records.get created.record.id = some created.record
  active : created.record.revokedAt = none
  scopes : created.record.scopes = record.scopes
  label : created.record.label = none
  expiresAt : created.record.expiresAt = none

structure Rekeying (origin : World) (dealt : List AuthTokenRecord)
    (out : OrderedMap String CreatedToken) (world : World) : Prop where
  uuids : world.uuids = origin.uuids
  drawn : origin.drawn ≤ world.drawn
  fresh : Fresh world
  kept : ∀ id record, origin.records.get id = some record →
    (∀ row ∈ dealt, row.revokedAt = none → row.id ≠ id) →
      world.records.get id = some record
  replaced : ∀ row ∈ dealt, row.revokedAt = none → TakenBack row row.id world ∧
    ∃ created, out.get row.id = some created ∧ Successor row created world
  answered : ∀ id created, out.get id = some created → ∃ row ∈ dealt, row.id = id
  minted : ∀ id created, out.get id = some created → ∃ draw, origin.drawn ≤ draw ∧
    draw < world.drawn ∧ created.record.id = origin.uuids draw
  distinct : ∀ id other created created', out.get id = some created →
    out.get other = some created' → created.record.id = created'.record.id → id = other
  rows : ∀ id record, world.records.get id = some record →
    (origin.records.get id).isSome = true ∨
      ∃ old created, out.get old = some created ∧ created.record.id = id
  begun : (∃ row ∈ dealt, row.revokedAt = none) → ¬ Withheld origin
  idle : (∀ row ∈ dealt, row.revokedAt ≠ none) → world = origin

section Rekeying

variable {origin : World} {dealt : List AuthTokenRecord} {record : AuthTokenRecord}
variable {out : OrderedMap String CreatedToken}

theorem Rekeying.start (fresh : Fresh origin) : Rekeying origin [] .empty origin where
  uuids := rfl
  drawn := le_rfl
  fresh := fresh
  kept := fun _ _ known _ => known
  replaced := by simp
  answered := by simp
  minted := by simp
  distinct := by simp
  rows := fun _ _ known => .inl (by rw [known]; rfl)
  begun := by simp
  idle := fun _ => rfl

theorem Rekeying.skip (rekeying : Rekeying origin dealt out world)
    (past : record.revokedAt ≠ none) :
    Rekeying origin (dealt ++ [record]) out world where
  uuids := rekeying.uuids
  drawn := rekeying.drawn
  fresh := rekeying.fresh
  kept := fun id row known other => rekeying.kept id row known fun row' listed =>
    other row' (List.mem_append_left _ listed)
  replaced := by
    intro row listed active
    rcases List.mem_append.mp listed with earlier | here
    · exact rekeying.replaced row earlier active
    · rw [List.mem_singleton.mp here] at active
      exact absurd active past
  answered := by
    intro id created listed
    obtain ⟨row, earlier, own⟩ := rekeying.answered id created listed
    exact ⟨row, List.mem_append_left _ earlier, own⟩
  minted := rekeying.minted
  distinct := rekeying.distinct
  rows := rekeying.rows
  begun := by
    rintro ⟨row, listed, active⟩
    rcases List.mem_append.mp listed with earlier | here
    · exact rekeying.begun ⟨row, earlier, active⟩
    · rw [List.mem_singleton.mp here] at active
      exact absurd active past
  idle := fun none => rekeying.idle fun row listed =>
    none row (List.mem_append_left _ listed)

theorem Rekeying.turn (rekeying : Rekeying origin dealt out world)
    (fresh : Fresh origin) (distinct : Function.Injective origin.uuids)
    {options : RekeyTokensOptions} {next : CreatedToken} {final : World}
    (known : origin.records.get record.id = some record)
    (apart : ∀ row ∈ dealt, row.id ≠ record.id) (active : record.revokedAt = none)
    (withheld : ¬ Withheld world)
    (turned : Replaced (options.rotation record.id) world record next final) :
    Rekeying origin (dealt ++ [record]) (out.set record.id next) final := by
  have named : next.record.id = origin.uuids (world.drawn + 1) := by
    rw [turned.id, rekeying.uuids]
  have unknown : origin.records.get next.record.id = none := by
    rw [named]
    exact fresh _ (rekeying.drawn.trans (Nat.le_succ _))
  have spared : ∀ id row, world.records.get id = some row → id ≠ record.id →
      final.records.get id = some row := by
    intro id row found other
    rw [turned.get_other other, found]
    rintro rfl
    rw [turned.minted rekeying.fresh] at found
    cases found
  have older : ∀ id created, out.get id = some created →
      created.record.id ≠ record.id ∧ created.record.id ≠ next.record.id := by
    intro id created listed
    obtain ⟨draw, after, before, same⟩ := rekeying.minted id created listed
    refine ⟨?_, ?_⟩
    · intro equal
      have none := fresh draw after
      rw [← same, equal, known] at none
      cases none
    · intro equal
      rw [same, named] at equal
      have := distinct equal
      omega
  refine ⟨turned.uuids.trans rekeying.uuids, ?_, ?_, ?_, ?_, ?_, ?_, ?_, ?_, ?_, ?_⟩
  · rw [turned.drawn]
    exact rekeying.drawn.trans (Nat.le_add_right _ _)
  · exact turned.fresh rekeying.fresh (by rw [rekeying.uuids]; exact distinct)
  · intro id row found other
    refine spared id row (rekeying.kept id row found fun row' listed =>
      other row' (List.mem_append_left _ listed)) ?_
    exact (other record (by simp) active).symm
  · intro row listed active'
    rcases List.mem_append.mp listed with earlier | here
    · obtain ⟨⟨ts, stamped⟩, created, out', successor⟩ :=
        rekeying.replaced row earlier active'
      refine ⟨⟨ts, spared _ _ stamped (apart row earlier)⟩, created, ?_, ?_⟩
      · rw [OrderedMap.get_set, if_neg (apart row earlier)]
        exact out'
      · exact { successor with
          stored := spared _ _ successor.stored (older _ _ out').1 }
    · obtain rfl := List.mem_singleton.mp here
      refine ⟨turned.revoked rekeying.fresh, next, ?_, ?_⟩
      · rw [OrderedMap.get_set, if_pos rfl]
      · refine ⟨turned.get_next, turned.active, turned.scopes, turned.label, ?_⟩
        have expires := turned.expires
        injection expires with same
        exact same.symm
  · intro id created listed
    rw [OrderedMap.get_set] at listed
    split at listed
    · rename_i own
      exact ⟨record, by simp, own.symm⟩
    · obtain ⟨row, earlier, own⟩ := rekeying.answered id created listed
      exact ⟨row, List.mem_append_left _ earlier, own⟩
  · intro id created listed
    rw [OrderedMap.get_set] at listed
    split at listed
    · cases listed
      exact ⟨world.drawn + 1, rekeying.drawn.trans (Nat.le_succ _),
        by rw [turned.drawn]; omega, named⟩
    · obtain ⟨draw, after, before, same⟩ := rekeying.minted id created listed
      exact ⟨draw, after, by rw [turned.drawn]; omega, same⟩
  · intro id other created created' listed listed' same
    rw [OrderedMap.get_set] at listed listed'
    split at listed
    · rename_i here
      split at listed'
      · rename_i there
        exact here.trans there.symm
      · cases listed
        exact absurd same.symm (older _ _ listed').2
    · split at listed'
      · cases listed'
        exact absurd same (older _ _ listed).2
      · exact rekeying.distinct _ _ _ _ listed listed' same
  · intro id row found
    by_cases new : id = next.record.id
    · exact .inr ⟨record.id, next, by rw [OrderedMap.get_set, if_pos rfl], new.symm⟩
    · by_cases own : id = record.id
      · left
        rw [own, known]
        rfl
      · rw [turned.get_other own new] at found
        refine (rekeying.rows id row found).imp_right ?_
        rintro ⟨old, created, listed, same⟩
        obtain ⟨row, earlier, own'⟩ := rekeying.answered old created listed
        refine ⟨old, created, ?_, same⟩
        rw [OrderedMap.get_set, if_neg (own' ▸ apart row earlier)]
        exact listed
  · rintro -
    by_cases some : ∃ row ∈ dealt, row.revokedAt = none
    · exact rekeying.begun some
    · rw [← rekeying.idle fun row listed none => some ⟨row, listed, none⟩]
      exact withheld
  · intro none
    exact absurd active (none record (by simp))

def Failed (origin : World) (rows : List AuthTokenRecord) (final : World) : Prop :=
  (Withheld origin ∧ final.records = origin.records) ∨
    ¬ Withheld origin ∧ ∃ row ∈ rows, row.revokedAt = none ∧ TakenBack row row.id final

theorem Rekeying.failed_early (rekeying : Rekeying origin dealt out world)
    {rest : List AuthTokenRecord} (same : final.records = world.records)
    (withheld : Withheld world) : Failed origin (dealt ++ rest) final := by
  by_cases some : ∃ row ∈ dealt, row.revokedAt = none
  · obtain ⟨row, listed, active⟩ := some
    obtain ⟨⟨ts, stamped⟩, -⟩ := rekeying.replaced row listed active
    refine .inr ⟨rekeying.begun ⟨row, listed, active⟩, row,
      List.mem_append_left _ listed, active, ts, ?_⟩
    rw [same]
    exact stamped
  · obtain rfl := rekeying.idle fun row listed none => some ⟨row, listed, none⟩
    exact .inl ⟨withheld, same⟩

theorem Rekeying.not_withheld (rekeying : Rekeying origin dealt out world)
    (revoking : ¬ Withheld world) : ¬ Withheld origin := by
  by_cases some : ∃ row ∈ dealt, row.revokedAt = none
  · exact rekeying.begun some
  · rwa [← rekeying.idle fun row listed none => some ⟨row, listed, none⟩]

theorem rekeyEach_leads (options : RekeyTokensOptions) (fresh : Fresh origin)
    (distinct : Function.Injective origin.uuids) {rest : List AuthTokenRecord}
    (listed : ∀ row ∈ rest, origin.records.get row.id = some row)
    (once : ((dealt ++ rest).map AuthTokenRecord.id).Nodup)
    (rekeying : Rekeying origin dealt out world) :
    Leads crypto verifying (rekeyEach options rest out) world fun result final =>
      match result with
      | .ok out => Rekeying origin (dealt ++ rest) out final
      | .error _ => Failed origin (dealt ++ rest) final := by
  induction rest generalizing dealt out world with
  | nil =>
    refine .done ?_
    simpa using rekeying
  | cons record rest ih =>
    have known := listed record List.mem_cons_self
    have later := fun row here => listed row (List.mem_cons_of_mem record here)
    rw [List.append_cons] at once ⊢
    rw [rekeyEach]
    split
    · rename_i past
      exact ih later once (rekeying.skip (Option.isSome_iff_ne_none.mp past))
    · rename_i current
      have active : record.revokedAt = none := by simpa using current
      have apart : ∀ row ∈ dealt, row.id ≠ record.id := by
        intro row earlier same
        rw [List.map_append, List.map_append] at once
        have disjoint := (List.nodup_append.mp (List.nodup_append.mp once).1).2.2
        exact disjoint row.id (List.mem_map_of_mem earlier) record.id (by simp) same
      have here : world.records.get record.id = some record :=
        rekeying.kept _ _ known fun row earlier _ => apart row earlier
      refine .bind (rotateToken_leads (options.rotation record.id) rekeying.fresh) ?_ ?_
      · rintro rotated final ⟨revoking, existing, turned⟩
        obtain rfl : existing = record := by
          have found := turned.known
          rw [RekeyTokensOptions.rotation, here] at found
          exact (Option.some.inj found).symm
        exact ih later once
          (rekeying.turn fresh distinct known apart active revoking turned)
      · rintro error final (⟨same, none | withheld⟩ | ⟨revoking, existing, found, revoked⟩)
        · rw [RekeyTokensOptions.rotation, here] at none
          cases none
        · rw [List.append_assoc]
          exact rekeying.failed_early same withheld
        · obtain rfl : existing = record := by
            rw [RekeyTokensOptions.rotation, here] at found
            exact (Option.some.inj found).symm
          exact .inr ⟨rekeying.not_withheld revoking, existing, by simp, active, revoked⟩

end Rekeying

def NoLater : Option Timestamp → Option Timestamp → Prop
  | _, none => True
  | none, some _ => False
  | some new, some old => ∃ instant instant', new.parse = some instant ∧
      old.parse = some instant' ∧ instant ≤ instant'

/-- The token is revoked, and one that is as good took its place. -/
structure OneForOne (record : AuthTokenRecord) (out : OrderedMap String CreatedToken)
    (final : World) : Prop where
  revoked : TakenBack record record.id final
  successor : ∃ created, out.get record.id = some created ∧
    final.records.get created.record.id = some created.record ∧
      created.record.revokedAt = none ∧ created.record.scopes = record.scopes ∧
        created.record.label = record.label ∧
          NoLater created.record.expiresAt record.expiresAt

/-- No token has two successors, no two tokens have one, and nothing else is
new in the store. -/
structure Exclusive (world : World) (out : OrderedMap String CreatedToken)
    (final : World) : Prop where
  distinct : ∀ id other created created', out.get id = some created →
    out.get other = some created' → created.record.id = created'.record.id → id = other
  rows : ∀ id record, final.records.get id = some record →
    (world.records.get id).isSome = true ∨
      ∃ old created, out.get old = some created ∧ created.record.id = id

def StillActive (id : String) (final : World) : Prop :=
  ∃ record, final.records.get id = some record ∧ record.revokedAt = none

theorem TakenBack.not_active {record : AuthTokenRecord} {id : String} {final : World}
    (revoked : TakenBack record id final) : ¬ StillActive id final := by
  obtain ⟨ts, stamped⟩ := revoked
  rintro ⟨row, found, active⟩
  rw [stamped] at found
  cases found
  cases active

theorem oneForOne_iff (revoked : TakenBack record record.id final)
    (listed : out.get record.id = some created) (successor : Successor record created final) :
    OneForOne record out final ↔ record.label = none ∧ record.expiresAt = none := by
  constructor
  · rintro ⟨-, other, listed', -, -, -, label, expiry⟩
    rw [listed] at listed'
    cases listed'
    rw [successor.label] at label
    rw [successor.expiresAt] at expiry
    refine ⟨label.symm, ?_⟩
    cases expires : record.expiresAt with
    | none => rfl
    | some =>
      rw [expires] at expiry
      exact expiry.elim
  · rintro ⟨label, expires⟩
    refine ⟨revoked, created, listed, successor.stored, successor.active,
      successor.scopes, ?_, ?_⟩
    · rw [successor.label, label]
    · rw [expires]
      trivial

section Keyed

variable (keyed : ∀ id record, world.records.get id = some record → record.id = id)

include keyed

theorem get_of_rows (listed : record ∈ world.rows) :
    world.records.get record.id = some record := by
  obtain ⟨⟨id, row⟩, entry, rfl⟩ := List.mem_map.mp listed
  have found := OrderedMap.get_eq_some.mpr entry
  rwa [keyed id row found]

theorem rows_once : (world.rows.map AuthTokenRecord.id).Nodup := by
  have same : world.rows.map AuthTokenRecord.id = world.records.keys := by
    rw [World.rows, OrderedMap.keys, List.map_map]
    refine List.map_congr_left fun entry listed => ?_
    exact keyed entry.1 entry.2 (OrderedMap.get_eq_some.mpr listed)
  rw [same]
  exact world.records.distinct

/-- The world once its rows have been listed. -/
abbrev World.listed (world : World) : World :=
  { world with storeCalls := world.storeCalls + 1 }

theorem rekeyTokens_leads (options : RekeyTokensOptions) (fresh : Fresh world)
    (distinct : Function.Injective world.uuids) :
    Leads crypto verifying (rekeyTokens options) world fun result final =>
      match result with
      | .ok out => Rekeying world.listed world.rows out final
      | .error _ => (world.rejects world.storeCalls = true ∧
            final.records = world.records) ∨
          world.rejects world.storeCalls = false ∧
            Failed world.listed world.rows final := by
  refine .ask (.stored (fun faulty => .inl ⟨faulty, rfl⟩) fun answered => ?_)
  have each : Leads crypto verifying (rekeyEach options world.rows .empty) world.listed
      _ := @rekeyEach_leads crypto verifying world.listed world.listed [] .empty options
    fresh distinct world.rows (fun row => get_of_rows keyed) (rows_once keyed)
    (.start fresh)
  refine .bind each ?_ ?_
  · intro out final rekeying
    exact .now (.tell (.done rekeying))
  · intro error final failed
    exact .inr ⟨answered, failed⟩

end Keyed

/-- When tokens are replaced one for one, and when a failure takes none away. -/
theorem rekeying_replaces_tokens (crypto : Crypto) (verifying : VerifierOptions)
    (world : World)
    (keyed : ∀ id record, world.records.get id = some record → record.id = id)
    (distinct : Function.Injective world.uuids) (fresh : Fresh world) :
    (∀ (options : RekeyTokensOptions) (out : OrderedMap String CreatedToken),
      let run := (rekeyTokens options).run (handle crypto verifying) world
      run.result = .ok out →
        Exclusive world out run.final ∧
          ∀ id record, world.records.get id = some record → record.revokedAt = none →
            (OneForOne record out run.final ↔
              record.label = none ∧ record.expiresAt = none)) ∧
    (∀ (options : RotateTokenOptions) (error : AuthError),
      let run := (rotateToken options).run (handle crypto verifying) world
      run.result = .error error → StillActive options.id world →
        (StillActive options.id run.final ↔ Withheld world)) ∧
    (∀ (options : RekeyTokensOptions) (error : AuthError),
      let run := (rekeyTokens options).run (handle crypto verifying) world
      run.result = .error error →
        ((∀ id, StillActive id world → StillActive id run.final) ↔
          world.rejects world.storeCalls = true ∨ Withheld world.listed)) := by
  refine ⟨?_, ?_, ?_⟩
  · intro options out run returned
    have rekeying := (@rekeyTokens_leads crypto verifying world keyed options fresh
      distinct).run
    change match run.result with | .ok out => _ | .error _ => _ at rekeying
    rw [returned] at rekeying
    refine ⟨⟨rekeying.distinct, rekeying.rows⟩, ?_⟩
    intro id record known active
    have listed : record ∈ world.rows :=
      List.mem_map_of_mem (OrderedMap.get_eq_some.mp known)
    obtain ⟨revoked, created, answered, successor⟩ :=
      rekeying.replaced record listed active
    exact oneForOne_iff revoked answered successor
  · rintro options error run failed ⟨record, known, active⟩
    have rotating := (@rotateToken_leads crypto verifying world options fresh).run
    change match run.result with | .ok _ => _ | .error _ => _ at rotating
    rw [failed] at rotating
    rcases rotating with ⟨same, none | withheld⟩ | ⟨revoking, existing, found, revoked⟩
    · rw [known] at none
      cases none
    · exact iff_of_true ⟨record, by rw [same]; exact known, active⟩ withheld
    · exact iff_of_false revoked.not_active revoking
  · intro options error run failed
    have rekeying := (@rekeyTokens_leads crypto verifying world keyed options fresh
      distinct).run
    change match run.result with | .ok _ => _ | .error _ => _ at rekeying
    rw [failed] at rekeying
    have kept (same : run.final.records = world.records) :
        ∀ id, StillActive id world → StillActive id run.final := by
      rintro id ⟨record, known, active⟩
      exact ⟨record, by rw [same]; exact known, active⟩
    rcases rekeying with ⟨faulty, same⟩ |
      ⟨answered, ⟨withheld, same⟩ | ⟨revoking, row, listed, active, revoked⟩⟩
    · exact iff_of_true (kept same) (.inl faulty)
    · exact iff_of_true (kept same) (.inr withheld)
    · refine iff_of_false ?_ ?_
      · intro all
        exact revoked.not_active (all row.id ⟨row, get_of_rows keyed listed, active⟩)
      · rintro (faulty | withheld)
        · rw [answered] at faulty
          cases faulty
        · exact revoking withheld

end Runs

namespace RekeySample

open RevocationSample

def labelled : World :=
  { RevocationSample.world with
    records := OrderedMap.empty.set "t" { row "t" raw with label := some "ci" } }

def renewal : RekeyTokensOptions where
  pepper := options.pepper
  env := "live"

def weak : RotateTokenOptions where
  id := "t"
  pepper := []

theorem get_labelled (id : String) : labelled.records.get id =
    if id = "t" then some { row "t" raw with label := some "ci" } else none := by
  simp only [labelled, OrderedMap.get_set, OrderedMap.get_empty]

theorem labelled_keyed (id : String) (record : AuthTokenRecord)
    (known : labelled.records.get id = some record) : record.id = id := by
  rw [get_labelled] at known
  split at known
  · rename_i same
    cases known
    exact same.symm
  · cases known

theorem labelled_fresh : Fresh labelled := by
  intro draw _
  rw [get_labelled, if_neg]
  intro same
  have lengths := congrArg (fun text => text.toList.length) same
  simp [labelled, RevocationSample.world] at lengths

end RekeySample

open RevocationSample RekeySample in
/-- A label is lost on the way, and a rotation with a weak pepper takes the
token away. -/
theorem rekeying_loses_tokens :
    (¬ ∀ (crypto : Crypto) (verifying : VerifierOptions) (world : World)
      (_keyed : ∀ id record, world.records.get id = some record → record.id = id)
      (_distinct : Function.Injective world.uuids) (_fresh : Fresh world)
      (options : RekeyTokensOptions) (out : OrderedMap String CreatedToken),
      let run := (rekeyTokens options).run (handle crypto verifying) world
      run.result = .ok out →
        ∀ id record, world.records.get id = some record → record.revokedAt = none →
          OneForOne record out run.final) ∧
    ¬ ∀ (crypto : Crypto) (verifying : VerifierOptions) (world : World)
      (_keyed : ∀ id record, world.records.get id = some record → record.id = id)
      (_distinct : Function.Injective world.uuids) (_fresh : Fresh world)
      (options : RotateTokenOptions) (error : AuthError),
      let run := (rotateToken options).run (handle crypto verifying) world
      run.result = .error error → StillActive options.id world →
        StillActive options.id run.final := by
  constructor
  · intro claimed
    have label : (((rekeyTokens renewal).run (handle crypto options)
        labelled).result.toOption.bind fun out =>
          (out.get "t").map (fun created => created.record.label)) = some none := by
      set_option maxRecDepth 20000 in decide
    cases result : ((rekeyTokens renewal).run (handle crypto options)
        labelled).result with
    | error =>
      rw [result] at label
      cases label
    | ok out =>
      obtain ⟨-, created, answered, -, -, -, same, -⟩ := claimed crypto options
        labelled labelled_keyed ready.distinct labelled_fresh renewal out result "t" _
        (get_labelled "t") rfl
      change out.get "t" = some created at answered
      rw [result, Except.toOption, Option.bind_some, answered, Option.map_some,
        same] at label
      cases label
  · intro claimed
    have refused : ((rotateToken weak).run (handle crypto options)
        RevocationSample.world).result = .error (.weakPepper ⟨false, 0, none⟩) := by decide
    obtain ⟨record, found, active⟩ := claimed crypto options RevocationSample.world
      ready.keyed ready.distinct ready.fresh weak _ refused ⟨_, get_world "t", rfl⟩
    have gone : (((rotateToken weak).run (handle crypto options)
        RevocationSample.world).final.records.get "t").map AuthTokenRecord.revokedAt =
          some (some (.iso 1000)) := by decide
    change (((rotateToken weak).run (handle crypto options)
      RevocationSample.world).final.records.get "t") = some record at found
    rw [found, Option.map_some, active] at gone
    cases gone

open RevocationSample RekeySample in
theorem plain_token_replaced : ∃ out, OneForOne (row "t" raw) out
      ((rekeyTokens renewal).run (handle crypto options)
        RevocationSample.world).final := by
  have returns : ((rekeyTokens renewal).run (handle crypto options)
      RevocationSample.world).result.isOk = true := by set_option maxRecDepth 20000 in decide
  cases result : ((rekeyTokens renewal).run (handle crypto options)
      RevocationSample.world).result with
  | ok out =>
    refine ⟨out, ?_⟩
    have replaced := (rekeying_replaces_tokens crypto options RevocationSample.world
      ready.keyed ready.distinct ready.fresh).1 renewal out result
    exact (replaced.2 "t" (row "t" raw) (get_world "t") rfl).mpr ⟨rfl, rfl⟩
  | error =>
    rw [result] at returns
    cases returns

end Graphorin.Auth
