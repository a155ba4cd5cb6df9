import Graphorin.Audit.Bodies

namespace Graphorin.Audit

open Graphorin.Js Graphorin.Lib

/-! Any number of appends and prunes on one handle. -/

variable {κ : Type} (js : Runtime) {used : JsText → Prop}

/-- The entry that was made of an input. -/
def Records (append : AuditEntryInput × Rat) (entry : StoredAuditEntry) : Prop :=
  ∃ last, entry.toBaseAuditEntry = nextEntry last append.2 append.1

def Idle (used : JsText → Prop) (party : Party κ) (connection : Connection κ) : Prop :=
  connection.Wf js used ∧ connection.owner ≠ some party

theorem idle_stable (relied : rely js used party connection later)
    (idle : Idle js used party connection) : Idle js used party later :=
  ⟨(relied idle.1).wf, (relied idle.1).apart idle.2⟩

section Appends

variable (numbers : NumberTexts js) (apart : Apart used)

include numbers apart

theorem amid_append {now : Rat} (appendable : Appendable js input)
    (held : during js used .appends connection past)
    (idle : Idle js used .appends connection)
    (room : (tip connection.committed + 1 : Int) ≤ AuditTable.maxSafeInteger) :
    (transact .appends (appendStatements js now input)).amid Connection.execute
      (settingOf js used .appends) (Closes .appends (reported past)
        (Appended input now (tip connection.committed))) connection past := by
  refine amid_transact js used held idle.2 fun saved intact same => ?_
  rw [← same rfl] at room ⊢
  exact solo_append js numbers apart appendable intact room

theorem amid_writeChain {appends : List (AuditEntryInput × Rat)}
    {connection : Connection κ} {past : List (Action (handleInterface κ) Settled)}
    (each : ∀ append ∈ appends, Appendable js append.1)
    (held : during js used .appends connection past)
    (idle : Idle js used .appends connection)
    (room : (tip connection.committed + appends.length : Int) ≤
      AuditTable.maxSafeInteger) :
    (writeChain js appends).amid Connection.execute (settingOf js used .appends)
      (fun _ connection later => Idle js used .appends connection ∧
        ∃ entries, reported later = reported past ++ entries.map .appended ∧
          List.Forall₂ Records appends entries) connection past := by
  induction appends generalizing connection past with
  | nil => exact ⟨held, idle, [], by simp, .nil⟩
  | cons append _ ih =>
    obtain ⟨input, now⟩ := append
    rw [List.length_cons] at room
    push_cast at room
    refine Program.amid_bind (Program.amid_catchFail (Program.amid_bind
      (Program.amid_mono ?_ (amid_append js numbers apart
        (each _ List.mem_cons_self) held idle (by omega)))))
    rintro (failure | stored) connection' trace held' ⟨free, told, ends⟩
    · exact absurd rfl ends
    · have held'' : during js used .appends connection'
          (trace ++ [.told (.appended stored)]) := by
        refine ⟨held'.1, fun own report member => ?_⟩
        rw [reported_told] at member
        rcases List.mem_append.mp member with before | here
        · exact held'.2 own report before
        · exact ⟨stored, List.mem_singleton.mp here, ends.accounted⟩
      have onwards := ih (fun later member => each later
        (List.mem_cons_of_mem _ member)) held'' ⟨held'.1, free⟩
        (by rw [ends.tip]; push_cast; omega)
      refine ⟨held', held'', Program.amid_mono ?_ onwards⟩
      rintro result final later - ⟨idle', entries, reports, records⟩
      refine ⟨idle', stored :: entries, ?_, .cons ends.records records⟩
      rw [reports, reported_told, told]
      simp

end Appends

theorem amid_prune {call : κ} {options : PruneAuditOptions}
    {connection : Connection κ} {past : List (Action (handleInterface κ) Settled)}
    (held : during js used (.prune call) connection past)
    (idle : Idle js used (.prune call) connection) :
    (((pruneAudit js call options).bind fun result =>
        .emit (.pruned result) (.done ())).catchFail fun failure =>
          .emit (.pruneRejected failure) (.done ()) : AuditProgram κ Unit).amid
      Connection.execute (settingOf js used (.prune call))
      (fun _ connection _ => Idle js used (.prune call) connection) connection past := by
  have told : ∀ {connection : Connection κ}
      {past : List (Action (handleInterface κ) Settled)} (report : Settled),
      during js used (.prune call) connection past →
      connection.owner ≠ some (.prune call) →
      (Program.emit report (.done ()) : AuditProgram κ Unit).amid Connection.execute
        (settingOf js used (.prune call))
        (fun _ connection _ => Idle js used (.prune call) connection)
        connection past :=
    fun report held free =>
      ⟨held, ⟨held.1, fun own => nomatch own⟩, held.1, free⟩
  unfold pruneAudit
  cases options.before with
  | none => exact told _ held idle.2
  | some =>
    refine Program.amid_catchFail (Program.amid_bind (Program.amid_mono ?_
      (amid_transact js used held idle.2 fun saved intact _ =>
        solo_prune js (by grind) intact)))
    rintro (failure | result) connection' trace held' ⟨free, -, -⟩
    · exact told _ held' free
    · exact ⟨held', ⟨held'.1, fun own => nomatch own⟩, held'.1, free⟩

def ending (used : JsText → Prop) (appends : List (AuditEntryInput × Rat)) :
    Party κ → Except AuditFailure Unit → Connection κ →
      List (Action (handleInterface κ) Settled) → Prop
  | .appends, _, connection, trace => Idle js used .appends connection ∧
      ∃ entries, reported trace = entries.map .appended ∧
        List.Forall₂ Records appends entries
  | .prune call, _, connection, _ => Idle js used (.prune call) connection

theorem ending_stable (appends : List (AuditEntryInput × Rat)) (party : Party κ)
    (result : Except AuditFailure Unit) (connection later : Connection κ)
    (past : List (Action (handleInterface κ) Settled))
    (relied : (settingOf js used party).rely connection later)
    (ended : ending js used appends party result connection past) :
    ending js used appends party result later past := by
  cases party with
  | appends => exact ⟨idle_stable js relied ended.1, ended.2⟩
  | prune => exact idle_stable js relied ended

theorem settings_compatible (one other : Party κ) (apart : one ≠ other)
    (connection later : Connection κ)
    (guaranteed : (settingOf js used one).guarantee connection later) :
    (settingOf js used other).rely connection later :=
  guarantee_rely js used apart guaranteed

/-- The handle, before any call. -/
def opened (initial : Contents κ) : Connection κ := ⟨initial, none, none⟩

theorem calls_sound (numbers : NumberTexts js) (apart : Apart used)
    {prunes : κ → PruneAuditOptions} (intact : Intact js used initial)
    (each : ∀ append ∈ appends, Appendable js append.1)
    (room : (tip initial + appends.length : Int) ≤ AuditTable.maxSafeInteger) :
    (Pool.start (handleCalls js appends prunes) (opened initial)).Sound
      Connection.execute (settingOf js used) (ending js used appends) := by
  have wf : (opened initial).Wf js used := ⟨rfl, intact⟩
  intro party
  cases party with
  | appends =>
    have none : Stored (opened initial).committed [] := fun _ member => nomatch member
    exact @amid_writeChain _ js _ numbers apart appends _ [] each
      ⟨wf, fun _ => none⟩ ⟨wf, fun own => nomatch own⟩ room
  | prune =>
    exact amid_prune js ⟨wf, fun own => nomatch own⟩ ⟨wf, fun own => nomatch own⟩

/-- Whatever the schedule, as long as no append begins inside a transaction that
is open and no two texts collide: every append that settles is stored, what is
stored stays so until a prune deletes it, and the log is one chain without a
gap. -/
theorem entries_never_lost [DecidableEq κ] (numbers : NumberTexts js)
    (apart : Apart used) (appends : List (AuditEntryInput × Rat))
    (prunes : κ → PruneAuditOptions) (initial : Contents κ)
    (intact : Intact js used initial)
    (each : ∀ append ∈ appends, Appendable js append.1)
    (room : (tip initial + appends.length : Int) ≤ AuditTable.maxSafeInteger)
    (schedule : List (Party κ))
    (admitted : (Pool.start (handleCalls js appends prunes) (opened initial)).Admitted
      Connection.execute (Admits js used) schedule) :
    let final := (Pool.start (handleCalls js appends prunes) (opened initial)).play
      Connection.execute schedule
    (∀ report ∈ reported (final.trace .appends), ∃ entry,
      report = .appended entry ∧ Accounted entry final.store.committed) ∧
    ((final.rest .appends).ended = true → ∃ entries,
      reported (final.trace .appends) = entries.map .appended ∧
        List.Forall₂ Records appends entries) ∧
    (∀ entry, Accounted entry initial → Accounted entry final.store.committed) ∧
    (∃ first, 1 ≤ first ∧ final.store.committed.table.rows.map AuditRow.seq =
      List.range' first final.store.committed.table.rows.length) ∧
    ((∀ party, (final.rest party).ended = true) →
      final.store.saved = none ∧
        verifyAuditChain js final.store.contents.table none none =
          .ok (.ok final.store.contents.table.rows.length)) ∧
    ∀ party, ∃ turns, (((Pool.start (handleCalls js appends prunes)
      (opened initial)).play Connection.execute
        (schedule ++ List.replicate turns party)).rest party).ended = true := by
  intro final
  have sound := Pool.Sound.play (settings_compatible js) (ending_stable js appends)
    (fun _ _ _ admits => admits) (calls_sound js numbers apart intact each room)
    admitted
  have wf : ∀ party : Party κ, during js used party final.store (final.trace party) :=
    fun party => Program.amid_during (sound party)
  have intact' := (wf .appends).1.intact
  refine ⟨(wf .appends).2 rfl, ?_, ?_, ?_, ?_, ?_⟩
  · intro ended
    obtain ⟨result, -, entries, reports, records⟩ :=
      Program.amid_ended (sound .appends) ended
    exact ⟨entries, reports, records⟩
  · have kept := Pool.Sound.play_keeps (settings_compatible js)
      (ending_stable js appends) (fun _ _ _ admits => admits)
      (fun _ _ accounted => accounted)
      (fun before after entry accounted => after entry (before entry accounted))
      (fun party before after trace held guaranteed entry accounted =>
        (guaranteed held.1).follows.accounted entry accounted)
      (calls_sound js numbers apart intact each room) admitted
    exact kept
  · obtain ⟨first, positive, numbered⟩ := intact'.numbered
    exact ⟨first, positive, numbered.seqs⟩
  · intro ended
    have free : ∀ party, final.store.owner ≠ some party := by
      intro party
      obtain ⟨result, reached⟩ := Program.amid_ended (sound party) (ended party)
      cases party with
      | appends => exact reached.1.2
      | prune => exact reached.2
    have closed : final.store.saved = none := by
      have owned := (wf .appends).1.owned
      rw [Option.eq_none_iff_forall_ne_some.mpr free] at owned
      exact Option.not_isSome_iff_eq_none.mp (by rw [owned]; simp)
    have same : final.store.committed = final.store.contents := by
      rw [Connection.committed, closed]
      rfl
    rw [same] at intact'
    exact ⟨closed, (verifyAuditChain_linked js (intact'.bounds js)).mpr intact'.linked⟩
  · intro party
    obtain ⟨turns, ends⟩ := Pool.ends_alone Connection.execute party final
    exact ⟨turns, by rw [Pool.play_append]; exact ends⟩

def newLog : Contents Unit := ⟨.empty, []⟩

def oldEntries (_ : Unit) : PruneAuditOptions := ⟨some 0, none⟩

def besidePrune (schedule : List (Party Unit)) :
    Pool (handleInterface Unit) Settled AuditFailure Unit (Connection Unit)
      (Party Unit) :=
  (Pool.start (handleCalls plainRuntime countedRead oldEntries) (opened newLog)).play
    Connection.execute schedule

def countedText (text : JsText) : Prop :=
  text = hashedText plainRuntime
    (nextEntry none 0 (secretRead (.obj [(ascii "attempts", .num 3)])))

instance (text : JsText) : Decidable (countedText text) :=
  inferInstanceAs (Decidable (_ = _))

instance (connection : Connection Unit) (statement : Statement Unit) :
    Decidable (Admits plainRuntime countedText connection statement) :=
  match statement with
  | .beginImmediate .appends =>
    decidable_of_iff (connection.saved.isNone = true) Option.isNone_iff_eq_none
  | .beginImmediate (.prune _) => isTrue trivial
  | .insert _ => inferInstanceAs (Decidable (countedText _))
  | .replaceEntry _ => inferInstanceAs (Decidable (countedText _))
  | .commit => isTrue trivial
  | .rollback => isTrue trivial
  | .latest => isTrue trivial
  | .count => isTrue trivial
  | .iterate _ => isTrue trivial
  | .countUpTo _ => isTrue trivial
  | .deleteUpTo _ => isTrue trivial

/-- The append first, then the prune. -/
def inTurn : List (Party Unit) :=
  List.replicate 5 .appends ++ List.replicate 5 (.prune ())

theorem counted_read_appendable : ∀ append ∈ countedRead,
    Appendable plainRuntime append.1 := by
  intro append member
  obtain rfl := List.mem_singleton.mp member
  refine ⟨⟨by decide, by decide, ?_⟩, ?_, .inr ⟨_, rfl⟩⟩
  · simp [secretRead, Live.Kept, Live.KeptFields]
  · simp [secretRead, Live.Distinct, Live.DistinctFields]

theorem counted_read_kept : (besidePrune inTurn).store.saved = none ∧
      verifyAuditChain plainRuntime (besidePrune inTurn).store.contents.table none none =
        .ok (.ok (besidePrune inTurn).store.contents.table.rows.length) := by
  have intact : Intact plainRuntime countedText newLog :=
    ⟨⟨1, Nat.le_refl 1, rfl, by simp [newLog, AuditTable.empty]⟩, trivial,
      by simp [newLog, AuditTable.empty], by decide⟩
  have apart : Apart countedText := fun _ _ same same' _ => same.trans same'.symm
  have holds := entries_never_lost plainRuntime plain_numbers apart countedRead
    oldEntries newLog intact counted_read_appendable (by decide) inTurn
    (by decide +kernel)
  refine holds.2.2.2.2.1 ?_
  rintro (_ | ⟨⟨⟩⟩)
  · decide
  · decide

def insidePrune : List (Party Unit) :=
  [.prune (), .appends, .appends, .prune (), .prune (), .prune ()]

theorem append_inside_prune_rejected : ¬ ∀ schedule : List (Party Unit),
    (∀ party, ((besidePrune schedule).rest party).ended = true) →
      ∀ report ∈ reported ((besidePrune schedule).trace .appends),
        ∃ entry, report = .appended entry := by
  intro stored
  have settled : ∀ party, ((besidePrune insidePrune).rest party).ended = true := by
    rintro (_ | _)
    · rfl
    · rfl
  have reports : reported ((besidePrune insidePrune).trace .appends) =
      [.appendRejected (.statement .withinTransaction)] := rfl
  obtain ⟨entry, same⟩ := stored insidePrune settled
    (.appendRejected (.statement .withinTransaction)) (by simp [reports])
  cases same

end Graphorin.Audit
