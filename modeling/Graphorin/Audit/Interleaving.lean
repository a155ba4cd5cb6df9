import Graphorin.Audit.Programs

namespace Graphorin.Audit

open Graphorin.Js Graphorin.Lib

/-! Every interleaving of appends and prunes.  Who opened the transaction works
alone until it is closed; what is committed stays one chain. -/

/-- What a row holds besides its place in the chain. -/
def AuditRow.data (row : AuditRow) : AuditRow :=
  { row with prevHash := [], hash := [] }

variable {κ : Type} (js : Runtime)

/-- An entry is stored, or a prune has deleted it. -/
def Accounted (entry : StoredAuditEntry) (contents : Contents κ) : Prop :=
  (∃ row ∈ contents.table.rows,
    (entryToRow entry).map AuditRow.data = some row.data) ∨
  ∃ call threshold, (some (.prune call), threshold) ∈ contents.deletions ∧
    (entry.seq : Int) ≤ threshold

/-- The newest `seq`, zero in an empty log. -/
def tip (contents : Contents κ) : Nat :=
  (contents.table.rows.getLast?.map AuditRow.seq).getD 0

/-- One chain without a gap, of texts in use. -/
structure Intact (used : JsText → Prop) (contents : Contents κ) : Prop where
  numbered : ∃ first, 1 ≤ first ∧ Numbered first contents.table.rows
  linked : Linked js GENESIS_PREV_HASH contents.table.rows
  texts : ∀ row ∈ contents.table.rows,
    used (hashedText js (rowToEntry row).toBaseAuditEntry)
  small : (tip contents : Int) ≤ AuditTable.maxSafeInteger

/-- What a party may do to what is committed. -/
structure Follows (party : Party κ) (earlier later : Contents κ) : Prop where
  accounted : ∀ entry, Accounted entry earlier → Accounted entry later
  tip : party ≠ .appends → tip later = tip earlier

theorem Follows.refl (party : Party κ) (contents : Contents κ) :
    Follows party contents contents :=
  ⟨fun _ kept => kept, fun _ => rfl⟩

namespace Connection

/-- What the other connections of the file see. -/
def committed (connection : Connection κ) : Contents κ :=
  connection.saved.getD connection.contents

structure Wf (used : JsText → Prop) (connection : Connection κ) : Prop where
  owned : connection.saved.isSome = connection.owner.isSome
  intact : Intact js used connection.committed

end Connection

section Settings

variable (used : JsText → Prop)

structure Leaves (party : Party κ) (before after : Connection κ) : Prop where
  wf : after.Wf js used
  follows : Follows party before.committed after.committed
  owner : ∀ other, other ≠ party → before.owner = some other → after = before
  others : ∀ other, other ≠ party → before.owner ≠ some other →
    after.owner ≠ some other

structure Meets (party : Party κ) (before after : Connection κ) : Prop where
  wf : after.Wf js used
  accounted : ∀ entry, Accounted entry before.committed →
    Accounted entry after.committed
  tip : party = .appends → tip after.committed = tip before.committed
  own : before.owner = some party → after = before
  apart : before.owner ≠ some party → after.owner ≠ some party

def rely (party : Party κ) (before after : Connection κ) : Prop :=
  before.Wf js used → Meets js used party before after

def guarantee (party : Party κ) (before after : Connection κ) : Prop :=
  before.Wf js used → Leaves js used party before after

theorem rely_refl (party : Party κ) (connection : Connection κ) :
    rely js used party connection connection :=
  fun wf => ⟨wf, fun _ kept => kept, fun _ => rfl, fun _ => rfl, fun apart => apart⟩

variable {party : Party κ}

theorem rely_trans (before : rely js used party first second)
    (after : rely js used party second third) : rely js used party first third := by
  intro wf
  have left := before wf
  have right := after left.wf
  refine ⟨right.wf, fun entry kept => right.accounted entry (left.accounted entry kept),
    fun appends => (right.tip appends).trans (left.tip appends), ?_,
    fun apart => right.apart (left.apart apart)⟩
  intro own
  have same := left.own own
  subst same
  exact right.own own

theorem guarantee_rely (apart : one ≠ other)
    (guaranteed : guarantee js used one before after) :
    rely js used other before after := by
  intro wf
  have left := guaranteed wf
  refine ⟨left.wf, left.follows.accounted, ?_, left.owner other apart.symm,
    left.others other apart.symm⟩
  rintro rfl
  exact left.follows.tip apart

/-- What was reported. -/
def reported (trace : List (Action (handleInterface κ) Settled)) : List Settled :=
  trace.filterMap fun action =>
    match action with
    | .told obs => some obs
    | .called _ _ => none

@[simp] theorem reported_called (trace : List (Action (handleInterface κ) Settled))
    (statement : Statement κ) (answer : Statement.Result statement) :
    reported (trace ++ [.called statement answer]) = reported trace := by
  simp [reported]

@[simp] theorem reported_told (trace : List (Action (handleInterface κ) Settled))
    (settled : Settled) :
    reported (trace ++ [.told settled]) = reported trace ++ [settled] := by
  simp [reported]

/-- Every append settled so far stored its entry. -/
def Stored (contents : Contents κ) (settled : List Settled) : Prop :=
  ∀ report ∈ settled, ∃ entry, report = .appended entry ∧ Accounted entry contents

def during (party : Party κ) (connection : Connection κ)
    (trace : List (Action (handleInterface κ) Settled)) : Prop :=
  connection.Wf js used ∧
    (party = .appends → Stored connection.committed (reported trace))

/-- Every text that is hashed is in use, and no append begins inside an open
transaction. -/
def Admits (connection : Connection κ) : Statement κ → Prop
  | .beginImmediate .appends => connection.saved = none
  | .insert entry => used (hashedText js entry.toBaseAuditEntry)
  | .replaceEntry entry => used (hashedText js entry.toBaseAuditEntry)
  | _ => True

def settingOf (party : Party κ) : Setting (handleInterface κ) Settled
    (Connection κ) where
  rely := rely js used party
  guarantee := guarantee js used party
  admits := Admits js used
  during := during js used party
  refl := rely_refl js used party
  trans := rely_trans js used
  stable := by
    intro store later past relied held
    have met := relied held.1
    refine ⟨met.wf, fun appends report member => ?_⟩
    obtain ⟨entry, shape, kept⟩ := held.2 appends report member
    exact ⟨entry, shape, met.accounted entry kept⟩

def Statement.isData : Statement κ → Bool
  | .beginImmediate _ => false
  | .commit => false
  | .rollback => false
  | _ => true

def inside (party : Party κ) (saved contents : Contents κ) : Connection κ :=
  ⟨contents, some saved, some party⟩

theorem change_inside (party : Party κ) (saved contents : Contents κ)
    (result : Except TableError AuditTable) :
    ((inside party saved contents).change result).2 =
      inside party saved ((inside party saved contents).change result).2.contents := by
  cases result with
  | ok => rfl
  | error => rfl

theorem execute_inside (data : statement.isData = true) (party : Party κ)
    (saved contents : Contents κ) :
    (Connection.execute statement (inside party saved contents)).2 =
      inside party saved
        (Connection.execute statement (inside party saved contents)).2.contents := by
  cases statement with
  | beginImmediate => cases data
  | commit => cases data
  | rollback => cases data
  | insert => exact change_inside party saved contents _
  | replaceEntry => exact change_inside party saved contents _
  | _ => rfl

def Solo {α : Type} (party : Party κ) (saved : Contents κ)
    (post : Except AuditFailure α → Contents κ → Prop) :
    AuditProgram κ α → Contents κ → Prop
  | .done value, contents => post (.ok value) contents
  | .fail failure, contents => post (.error failure) contents
  | .emit _ _, _ => False
  | .call statement next, contents =>
    statement.isData = true ∧
      (Admits js used (inside party saved contents) statement →
        Solo party saved post
          (next (Connection.execute statement (inside party saved contents)).1)
          (Connection.execute statement (inside party saved contents)).2.contents)

def soloNext {α β : Type} (party : Party κ) (saved : Contents κ)
    (f : α → AuditProgram κ β) (post : Except AuditFailure β → Contents κ → Prop) :
    Except AuditFailure α → Contents κ → Prop
  | .ok value, contents => Solo js used party saved post (f value) contents
  | .error failure, contents => post (.error failure) contents

variable {α : Type} {saved contents : Contents κ}

variable {fn : AuditProgram κ α}

theorem solo_bind {β : Type} {post : Except AuditFailure β → Contents κ → Prop}
    {f : α → AuditProgram κ β}
    (holds : Solo js used party saved (soloNext js used party saved f post) fn contents) :
    Solo js used party saved post (fn.bind f) contents := by
  induction fn generalizing contents with
  | done => exact holds
  | fail => exact holds
  | emit => exact holds.elim
  | call statement next ih => exact ⟨holds.1, fun admitted => ih _ (holds.2 admitted)⟩

theorem solo_mono {strong weak : Except AuditFailure α → Contents κ → Prop}
    (implies : ∀ result final, strong result final → weak result final)
    (holds : Solo js used party saved strong fn contents) :
    Solo js used party saved weak fn contents := by
  induction fn generalizing contents with
  | done => exact implies _ _ holds
  | fail => exact implies _ _ holds
  | emit => exact holds.elim
  | call statement next ih => exact ⟨holds.1, fun admitted => ih _ (holds.2 admitted)⟩

theorem amid_solo (intact : Intact js used saved)
    (stored : party = .appends → Stored saved (reported past))
    (holds : Solo js used party saved post fn contents) :
    fn.amid Connection.execute (settingOf js used party)
      (fun result connection later => ∃ final,
        connection = inside party saved final ∧ post result final ∧
          reported later = reported past) (inside party saved contents) past := by
  have held : ∀ contents, (inside party saved contents).Wf js used :=
    fun contents => ⟨rfl, intact⟩
  induction fn generalizing contents past with
  | done => exact ⟨⟨held contents, stored⟩, contents, rfl, holds, rfl⟩
  | fail => exact ⟨⟨held contents, stored⟩, contents, rfl, holds, rfl⟩
  | emit => exact holds.elim
  | call statement _ ih =>
    refine ⟨⟨held contents, stored⟩, ?_⟩
    intro later relied admitted
    obtain rfl := (relied (held contents)).own rfl
    have shape := execute_inside holds.1 party saved contents
    refine ⟨?_, ?_⟩
    · intro wf
      refine ⟨?_, ?_, ?_, ?_⟩
      · rw [shape]
        exact held _
      · rw [shape]
        exact Follows.refl party saved
      · intro other apart own
        exact absurd (Option.some.inj own).symm apart
      · intro other apart _
        rw [shape]
        exact fun own => apart (Option.some.inj own).symm
    · have onwards := @ih (Connection.execute statement
          (inside party saved contents)).1 _
        (past ++ [.called statement (Connection.execute statement
          (inside party saved contents)).1])
        (by rw [reported_called]; exact stored) (holds.2 admitted)
      rw [reported_called, ← shape] at onwards
      exact onwards

/-- How the body of a transaction may end. -/
def Ends {α : Type} (party : Party κ) (saved : Contents κ)
    (post : α → Contents κ → Prop) : Except AuditFailure α → Contents κ → Prop
  | .ok value, final =>
    Intact js used final ∧ Follows party saved final ∧ post value final
  | .error _, _ => party ≠ .appends

def Closes {α : Type} (party : Party κ) (settled : List Settled)
    (post : α → Contents κ → Prop) (result : Except AuditFailure α)
    (connection : Connection κ)
    (later : List (Action (handleInterface κ) Settled)) : Prop :=
  connection.owner ≠ some party ∧ reported later = settled ∧
    match result with
    | .ok value => post value connection.committed
    | .error _ => party ≠ .appends

variable {connection : Connection κ}

theorem leaves_refl (wf : connection.Wf js used) :
    Leaves js used party connection connection :=
  ⟨wf, Follows.refl party _, fun _ _ _ => rfl, fun _ _ apart => apart⟩

theorem leaves_inside (intact : Intact js used final) (follows : Follows party saved final) :
    Leaves js used party (inside party saved contents) ⟨final, none, none⟩ := by
  refine ⟨⟨rfl, intact⟩, follows, ?_, fun other _ _ none => nomatch none⟩
  intro other apart own
  exact absurd (Option.some.inj own).symm apart

theorem leaves_begin (wf : connection.Wf js used) (closed : connection.saved = none) :
    Leaves js used party connection
      (inside party connection.contents connection.contents) := by
  have same : connection.committed = connection.contents := by
    rw [Connection.committed, closed]
    rfl
  have free : connection.owner = none := by
    have owned := wf.owned
    rw [closed] at owned
    exact Option.isSome_eq_false_iff.mp owned.symm |> Option.isNone_iff_eq_none.mp
  refine ⟨⟨rfl, same ▸ wf.intact⟩, ?_, ?_, ?_⟩
  · rw [same]
    exact Follows.refl party _
  · intro other _ own
    rw [free] at own
    cases own
  · intro other apart _ own
    exact apart (Option.some.inj own).symm

theorem amid_transact (held : during js used party connection past)
    (apart : connection.owner ≠ some party)
    (body : ∀ saved, Intact js used saved →
      (party = .appends → tip saved = tip connection.committed) →
        Solo js used party saved (Ends js used party saved post) fn saved) :
    (transact party fn).amid Connection.execute (settingOf js used party)
      (Closes party (reported past) post) connection past := by
  refine ⟨held, ?_⟩
  intro later relied admitted
  have met := relied held.1
  have stored := ((settingOf js used party).stable relied held).2
  cases closed : later.saved with
  | some =>
    have busy : Connection.execute (.beginImmediate party) later =
        (.error .withinTransaction, later) := by
      simp only [Connection.execute, closed]
    have other : party ≠ .appends := by
      rintro rfl
      exact absurd (closed.symm.trans admitted) (by simp)
    rw [busy]
    refine ⟨fun wf => leaves_refl js used wf, ⟨met.wf, fun own => absurd own other⟩,
      met.apart apart, reported_called _ _ _, other⟩
  | none =>
    have begun : Connection.execute (.beginImmediate party) later =
        (.ok (), inside party later.contents later.contents) := by
      simp only [Connection.execute, closed]
      rfl
    have same : later.committed = later.contents := by
      rw [Connection.committed, closed]
      rfl
    have intact : Intact js used later.contents := same ▸ met.wf.intact
    rw [begun]
    refine ⟨fun wf => leaves_begin js used wf closed, ?_⟩
    refine Program.amid_catchFail (Program.amid_bind ?_)
    refine Program.amid_mono ?_ (amid_solo js used intact ?_ (body _ intact ?_))
    · rintro result ended trace - ⟨final, rfl, ends, told⟩
      have wf : (inside party later.contents final).Wf js used := ⟨rfl, intact⟩
      have stored' : party = .appends → Stored later.contents (reported trace) := by
        intro own
        rw [told, reported_called, ← same]
        exact stored own
      cases result with
      | error =>
        refine ⟨⟨wf, stored'⟩, ?_⟩
        intro latest relied _
        obtain rfl := (relied wf).own rfl
        refine ⟨fun _ => leaves_inside js used intact (Follows.refl party _),
          ⟨⟨⟨rfl, intact⟩, fun own => absurd own ends⟩, ?_, ?_, ends⟩⟩
        · exact fun own => nomatch own
        · rw [reported_called, told, reported_called]
      | ok =>
        obtain ⟨intact', follows, holds⟩ := ends
        refine ⟨⟨wf, stored'⟩, ?_⟩
        intro latest relied _
        obtain rfl := (relied wf).own rfl
        refine ⟨fun _ => leaves_inside js used intact' follows,
          ⟨⟨⟨rfl, intact'⟩, ?_⟩, ?_, ?_, holds⟩⟩
        · intro own report member
          rw [reported_called] at member
          obtain ⟨entry, shape, kept⟩ := stored' own report member
          exact ⟨entry, shape, follows.accounted entry kept⟩
        · exact fun own => nomatch own
        · rw [reported_called, told, reported_called]
    · intro own
      rw [reported_called, ← same]
      exact stored own
    · intro own
      rw [← same]
      exact met.tip own

end Settings

end Graphorin.Audit
