import Graphorin.Memory.Steps

namespace Graphorin.Memory

open Lib

/-! A quarantined write against what default reads return. -/

variable {detectMemoryInjection : String → Bool}

/-- Whether a default read at `t` returns the fact. -/
def Store.current (store : Store) (userId : String) (t : Int) (id : String) : Bool :=
  (store.view id).any fun row => row.admitted userId false (some t)

theorem current_iff {store : Store} {userId id : String} {t : Int} :
    store.current userId t id = true ↔
      ∃ row, store.view id = some row ∧ row.admitted userId false (some t) = true := by
  rw [Store.current]
  cases store.view id with
  | none => simp
  | some => simp

theorem active_of_admitted {row : Row} {userId : String} {epoch : Option Int}
    (read : row.admitted userId false epoch = true) : row.status = .active := by
  cases status : row.status with
  | active => rfl
  | quarantined => simp [Row.admitted, status] at read

/-- What a call leaves of the facts others rely on. -/
structure Undisplaced (op : Op) (store after : Store) : Prop where
  /-- After a write that lands quarantined, all that was returned still is. -/
  reads : (∃ id row, op.newId = some id ∧ after.view id = some row ∧
      row.status = .quarantined) →
    ∀ userId t id, store.current userId t id = true → after.current userId t id = true
  /-- The interval of an active fact is closed for an active successor only. -/
  closings : ∀ id row row', store.view id = some row → row.status = .active →
    row.validTo = none → after.view id = some row' → row'.validTo ≠ none →
    ∃ successor srow, row'.supersededBy = some successor ∧
      after.view successor = some srow ∧ srow.status = .active

/-- The calls the tier writes facts with. -/
def Op.writes : Op → Bool
  | .remember .. | .supersede .. | .validate .. => true
  | _ => false

/-- A quarantined candidate for which the pipeline closes an active fact. -/
def Displaces (detectMemoryInjection : String → Bool) (store : Store) : Op → Prop
  | .remember env scope input options =>
    let fact := newFact detectMemoryInjection env scope input options
    deriveStatus detectMemoryInjection env input options = .quarantined ∧
      ∃ stage existingId reason saved row,
        decide env store fact options = .ok (.supersede stage existingId reason) ∧
          commitFact env store fact (resolveIndexText env input options.indexText) =
            .ok saved ∧
          store.view existingId = some row ∧ row.status = .active ∧ row.validTo = none
  | _ => False

theorem undisplaced_same (op : Op) (store : Store) (after : Store)
    (same : after.view = store.view) : Undisplaced op store after where
  reads _ userId t id read := by
    rw [current_iff] at read ⊢
    rwa [same]
  closings id row row' before _ open' there closed := by
    rw [same, before] at there
    cases there
    exact absurd open' closed

theorem undisplaced_written {op : Op} {store after : Store} {newId : String} {row : Row}
    (fresh : store.view newId = none)
    (written : after.view = Function.update store.view newId (some row)) :
    Undisplaced op store after := by
  have others : ∀ id before, store.view id = some before → after.view id = some before := by
    intro id before found
    have apart : id ≠ newId := by
      rintro rfl
      rw [fresh] at found
      cases found
    rw [written, Function.update_of_ne apart, found]
  constructor
  · intro _ userId t id read
    rw [current_iff] at read ⊢
    obtain ⟨before, found, admitted⟩ := read
    exact ⟨before, others id before found, admitted⟩
  · intro id before row' found _ open' there closed
    rw [others id before found] at there
    cases there
    exact absurd open' closed

/-- Closing for a successor that is active displaces nothing quarantined. -/
theorem closings_shut {store after : Store} {base : String → Option Row}
    {oldId newId : String} {closeAt now : Int} {row : Row}
    (shown : after.view = shut base oldId newId closeAt now)
    (there : base newId = some row) (active : row.status = .active)
    (kept : ∀ id before row', store.view id = some before → base id = some row' →
      row'.validTo = before.validTo) :
    ∀ id before row', store.view id = some before → before.status = .active →
      before.validTo = none → after.view id = some row' → row'.validTo ≠ none →
      ∃ successor srow, row'.supersededBy = some successor ∧
        after.view successor = some srow ∧ srow.status = .active := by
  intro id before row' found _ open' there' closed
  obtain ⟨srow, shown', same⟩ := shut_of_status there oldId newId closeAt now
  rw [shown] at there' ⊢
  by_cases here : id = oldId
  · rw [here, shut_self] at there'
    obtain ⟨row, _, rfl⟩ := Option.map_eq_some_iff.mp there'
    exact ⟨newId, srow, rfl, shown', same.trans active⟩
  · rw [shut_other here] at there'
    rw [kept id before row' found there', open'] at closed
    exact absurd rfl closed

theorem setStatus_closings {store : Store} {scope : Scope} {factId id : String}
    {reason : Option String} {now : Int} {before row' : Row}
    (found : store.view id = some before)
    (there : (store.setStatus scope factId .active reason now).view id = some row') :
    row'.validTo = before.validTo := by
  rw [view_setStatus, found] at there
  split at there
  · cases there
    rfl
  · cases there
    rfl

theorem undisplaced_setStatus {op : Op} {store : Store} {scope : Scope} {factId : String}
    {reason : Option String} {now : Int} (draws : op.newId = none) :
    Undisplaced op store (store.setStatus scope factId .active reason now) where
  reads := by
    rintro ⟨id, _, drawn, _⟩
    rw [draws] at drawn
    cases drawn
  closings id row row' found _ open' there closed := by
    rw [setStatus_closings found there] at closed
    exact absurd open' closed

theorem undisplaced_validate {scope : Scope} {factId : String} {reason : Option String}
    {force : Bool} {now : Int} {store : Store} {outcome : Outcome Unit}
    (ended : Validated detectMemoryInjection scope factId reason force now store outcome) :
    Undisplaced (.validate scope factId reason force now) store outcome.2 := by
  cases ended with
  | unread => exact undisplaced_setStatus rfl
  | refused => exact undisplaced_same _ _ _ rfl
  | promoted => exact undisplaced_setStatus rfl
  | @completed row oldRow oldId there live passes link old waiting =>
    refine ⟨?_, closings_shut (view_completed there) (Function.update_self ..) rfl ?_⟩
    · rintro ⟨id, _, drawn, _⟩
      cases drawn
    · intro id before row' found there'
      by_cases here : id = factId
      · subst here
        rw [Function.update_self] at there'
        cases there'
        rw [there] at found
        cases found
        rfl
      · rw [Function.update_of_ne here, found] at there'
        cases there'
        rfl

theorem kept_of_fresh {store : Store} {newId : String} {row : Row}
    (fresh : store.view newId = none) :
    ∀ id before row', store.view id = some before →
      Function.update store.view newId (some row) id = some row' →
      row' = before := by
  intro id before row' found there
  have apart : id ≠ newId := by
    rintro rfl
    rw [fresh] at found
    cases found
  rw [Function.update_of_ne apart, found] at there
  cases there
  rfl

theorem undisplaced_supersede {env : Env} {scope : Scope} {oldId : String}
    {input : FactInput} {auto : Bool} {store : Store} {outcome : Outcome Fact}
    (ended : Superseded detectMemoryInjection env scope oldId input auto store outcome)
    (fresh : store.view env.newId = none) :
    Undisplaced (.supersede env scope oldId input auto) store outcome.2 := by
  cases ended with
  | failed => exact undisplaced_same _ _ _ rfl
  | @deferred row write waits bound =>
    exact undisplaced_written fresh (by rw [view_linkEntities, view_insert fresh])
  | @closed row write acts saved bound =>
    have active : row.status = .active := by
      rw [(Fact.bound bound).status]
      cases status : (successor detectMemoryInjection env scope oldId input auto).status with
      | none => rfl
      | some status' =>
        cases status' with
        | active => rfl
        | quarantined => exact absurd status acts
    have shown : (((linkEntities env (store.insert env.newId row write)
        (successor detectMemoryInjection env scope oldId input auto)).insert env.newId
          { row with embedderId := none } {}).close oldId env.newId input.text
        (row.validFrom.getD env.later) env.later).view = _ :=
      view_closing ((view_linkEntities ..).trans (view_insert fresh))
    refine ⟨?_, closings_shut shown (Function.update_self ..) active ?_⟩
    · rintro ⟨id, srow, drawn, there, quarantined⟩
      cases drawn
      rw [shown] at there
      obtain ⟨row', found, same⟩ := shut_status there
      rw [Function.update_self] at found
      cases found
      rw [active, quarantined] at same
      cases same
    · intro id before row' found there
      rw [kept_of_fresh fresh id before row' found there]

theorem status_of_bound
    (bound : (newFact detectMemoryInjection env scope input options).toRow embedderId = .ok row) :
    row.status = deriveStatus detectMemoryInjection env input options :=
  (Fact.bound bound).status

/-- Closing a fact that was ended before, or was never active, takes nothing away. -/
theorem current_shut {store after : Store} {newId oldId : String} {row : Row}
    {closeAt now : Int} (fresh : store.view newId = none) (shown : after.view =
      shut (Function.update store.view newId (some row)) oldId newId closeAt now)
    (spared : ∀ old, store.view oldId = some old → old.status = .active →
      old.validTo ≠ none)
    {userId id : String} {t : Int} (read : store.current userId t id = true) :
    after.current userId t id = true := by
  rw [current_iff] at read ⊢
  obtain ⟨before, found, admitted⟩ := read
  have apart : id ≠ newId := by
    rintro rfl
    rw [fresh] at found
    cases found
  rw [shown]
  by_cases here : id = oldId
  · subst here
    rw [shut_self, Function.update_of_ne apart, found]
    have ended := spared before found (active_of_admitted admitted)
    refine ⟨_, rfl, ?_⟩
    have same : (before.close newId closeAt now).validTo = before.validTo := by
      cases validTo : before.validTo with
      | none => exact absurd validTo ended
      | some => simp [Row.close, validTo]
    rw [← admitted]
    simp only [Row.admitted, Option.all_some, Row.validAt, same]
    rfl
  · rw [shut_other here, Function.update_of_ne apart]
    exact ⟨before, found, admitted⟩

theorem undisplaced_remember {env : Env} {scope : Scope} {input : FactInput}
    {options : FactRememberOptions} {store : Store} {outcome : Outcome RememberOutcome}
    (ended : Remembered detectMemoryInjection env scope input options store outcome)
    (fresh : store.view env.newId = none)
    (harmless : ¬ Displaces detectMemoryInjection store
      (.remember env scope input options)) :
    Undisplaced (.remember env scope input options) store outcome.2 := by
  cases ended with
  | failed => exact undisplaced_same _ _ _ rfl
  | dedup => exact undisplaced_same _ _ _ rfl
  | admitted =>
    exact undisplaced_written fresh (by rw [view_linkEntities, view_insert fresh])
  | @closed stage existingId reason row column write decided saved bound since =>
    have shown : (linkEntities env (((store.insert env.newId row write).insert env.newId
        { row with embedderId := none } {}).close existingId env.newId input.text
          (column.getD env.later) env.later)
        (newFact detectMemoryInjection env scope input options)).view = _ :=
      (view_linkEntities ..).trans (view_closing (view_insert fresh))
    have status := status_of_bound bound
    cases lands : deriveStatus detectMemoryInjection env input options with
    | active =>
      rw [lands] at status
      refine ⟨?_, closings_shut shown (Function.update_self ..) status ?_⟩
      · rintro ⟨id, srow, drawn, there, quarantined⟩
        cases drawn
        rw [shown] at there
        obtain ⟨row', found, same⟩ := shut_status there
        rw [Function.update_self] at found
        cases found
        rw [status, quarantined] at same
        cases same
      · intro id before row' found there
        rw [kept_of_fresh fresh id before row' found there]
    | quarantined =>
      have spared : ∀ old, store.view existingId = some old → old.status = .active →
          old.validTo ≠ none := fun old found active open' =>
        harmless ⟨lands, stage, existingId, reason, _, old, decided, saved, found,
          active, open'⟩
      refine ⟨fun _ userId t id read => current_shut fresh shown spared read, ?_⟩
      intro id before row' found active open' there closed
      have apart : id ≠ env.newId := by
        rintro rfl
        rw [fresh] at found
        cases found
      rw [shown] at there
      by_cases here : id = existingId
      · subst here
        exact absurd open' (spared before found active)
      · rw [shut_other here, Function.update_of_ne apart, found] at there
        cases there
        exact absurd open' closed

theorem displaced_remember
    (ended : Remembered detectMemoryInjection env scope input options store outcome)
    (fresh : store.view env.newId = none)
    (displaces : Displaces detectMemoryInjection store (.remember env scope input options)) :
    ¬ Undisplaced (.remember env scope input options) store outcome.2 := by
  obtain ⟨lands, stage', existingId', reason', saved', old, decided', committed, found,
    active, open'⟩ := displaces
  cases ended with
  | failed _ blocked =>
    rcases blocked with blocked | blocked
    · rw [decided'] at blocked
      cases blocked
    · rw [committed] at blocked
      cases blocked
  | dedup decided =>
    rw [decided'] at decided
    cases decided
  | admitted decided plain =>
    rw [decided'] at decided
    cases decided
    exact absurd rfl (plain _ _ _)
  | @closed stage existingId reason row column write decided saved bound since =>
    rw [decided'] at decided
    cases decided
    intro undisplaced
    have shown : (linkEntities env (((store.insert env.newId row write).insert env.newId
        { row with embedderId := none } {}).close existingId' env.newId input.text
          (column.getD env.later) env.later)
        (newFact detectMemoryInjection env scope input options)).view = _ :=
      (view_linkEntities ..).trans (view_closing (view_insert fresh))
    have apart : existingId' ≠ env.newId := by
      rintro rfl
      rw [fresh] at found
      cases found
    have there := congrFun shown existingId'
    rw [shut_self, Function.update_of_ne apart, found] at there
    obtain ⟨successor, srow, named, shown', live⟩ := undisplaced.closings existingId' old
      _ found active open' there (by simp [Row.close, open'])
    cases named
    rw [shown] at shown'
    obtain ⟨row', written, same⟩ := shut_status shown'
    rw [Function.update_self] at written
    cases written
    rw [status_of_bound bound, lands, live] at same
    cases same

theorem undisplaced_iff (writes : op.writes = true)
    (fresh : ∀ id, op.newId = some id → store.view id = none) :
    Undisplaced op store (op.apply detectMemoryInjection store) ↔
      ¬ Displaces detectMemoryInjection store op := by
  cases op with
  | remember env scope input options =>
    have ended := rememberWithDecision_cases detectMemoryInjection env scope input options
      store
    exact ⟨fun undisplaced displaces =>
      displaced_remember ended (fresh _ rfl) displaces undisplaced,
      undisplaced_remember ended (fresh _ rfl)⟩
  | supersede env scope oldId input auto =>
    exact ⟨fun _ displaces => displaces, fun _ => undisplaced_supersede
      (supersede_cases detectMemoryInjection env scope oldId input auto store)
        (fresh _ rfl)⟩
  | validate scope factId reason force now =>
    exact ⟨fun _ displaces => displaces, fun _ => undisplaced_validate
      (validate_cases detectMemoryInjection scope factId reason force now store)⟩
  | promote | forget | purge | search => cases writes

/-- Every call of a run leaves undisplaced what it should, exactly when no quarantined
candidate meets a decision of the pipeline to supersede an active, open fact. -/
theorem quarantined_writes_displace_nothing {store : Store} {ops : List Op}
    (drawn : Drawn store ops) (writes : ∀ op ∈ ops, op.writes = true) :
    (∀ op reached, Called detectMemoryInjection store ops op reached →
        Undisplaced op reached (op.apply detectMemoryInjection reached)) ↔
      ∀ op reached, Called detectMemoryInjection store ops op reached →
        ¬ Displaces detectMemoryInjection reached op := by
  have each : ∀ op reached, Called detectMemoryInjection store ops op reached →
      (Undisplaced op reached (op.apply detectMemoryInjection reached) ↔
        ¬ Displaces detectMemoryInjection reached op) := fun op reached called =>
    undisplaced_iff (writes op called.mem) (called.fresh drawn)
  exact ⟨fun all op reached called => (each op reached called).mp (all op reached called),
    fun all op reached called => (each op reached called).mpr (all op reached called)⟩

def changePack : LocalePack where
  hash := id
  supersedeMarker text :=
    if text = "The user is now in Berlin." then some "; kind=generic; marker=is now" else none
  negationMarker _ := none
  splitSubjectPredicateObject _ := none

def wordsEngine : Engine where
  bm25 index _ := index.map fun entry => (entry.1, 1 / 1000000)
  nearest _ _ := []
  linearFallback := true
  scoreFromDistance distance := 1 - distance / 2

def plainEnv (newId : String) (now : Int) : Env where
  newId := newId
  now := now
  later := now + 1
  classifierFlagged := false
  embedder := none
  registry _ := none
  engine := wordsEngine
  pipeline := some ⟨false, changePack, ⟨95 / 100, 85 / 100, 40 / 100⟩, 5⟩
  contextualize input := input.text
  resolved := none

def parisCall : Op :=
  .remember (plainEnv "fact-1" 1000) ⟨"ada", none, none⟩
    { text := "The user lives in Paris.", provenance := some .user } {}

def berlinCall : Op :=
  .remember (plainEnv "fact-2" 2000) ⟨"ada", none, none⟩
    { text := "The user is now in Berlin.", provenance := some .extraction } {}

def silent : String → Bool := fun _ => false

theorem moving_drawn : Drawn .empty [parisCall, berlinCall] where
  once := by decide
  absent _ _ := rfl

/-- The extracted fact lands quarantined, and the fact it contradicts is gone. -/
theorem extraction_displaces : Drawn .empty [parisCall, berlinCall] ∧
      (∀ op ∈ [parisCall, berlinCall], op.writes = true) ∧
      ¬ ∀ op reached, Called silent .empty [parisCall, berlinCall] op reached →
        Undisplaced op reached (op.apply silent reached) := by
  refine ⟨moving_drawn, by decide, fun all => ?_⟩
  have undisplaced := all berlinCall _ ⟨[parisCall], [], rfl, rfl⟩
  have lands : ((berlinCall.apply silent (run silent .empty [parisCall])).view
      "fact-2").map (·.status) = some .quarantined := by decide +kernel
  obtain ⟨row, there, status⟩ := Option.map_eq_some_iff.mp lands
  have read : (run silent .empty [parisCall]).current "ada" 3000 "fact-1" = true := by
    decide
  have gone : (berlinCall.apply silent (run silent .empty [parisCall])).current "ada" 3000
      "fact-1" = false := by decide +kernel
  have still := undisplaced.reads ⟨"fact-2", row, rfl, there, status⟩ "ada" 3000 "fact-1" read
  rw [gone] at still
  cases still

theorem moving_displaces : Drawn .empty [parisCall, berlinCall] ∧
      (∀ op ∈ [parisCall, berlinCall], op.writes = true) ∧
      ((∀ op reached, Called silent .empty [parisCall, berlinCall] op reached →
          Undisplaced op reached (op.apply silent reached)) ↔
        ∀ op reached, Called silent .empty [parisCall, berlinCall] op reached →
          ¬ Displaces silent reached op) :=
  ⟨moving_drawn, by decide, quarantined_writes_displace_nothing moving_drawn (by decide)⟩

end Graphorin.Memory
