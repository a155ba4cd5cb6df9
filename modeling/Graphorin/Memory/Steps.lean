import Graphorin.Memory.Search
import Mathlib.Logic.Function.Basic

namespace Graphorin.Memory

open Lib

/-! What each call of the store leaves behind, row by row, and runs of calls of
the tier. -/

theorem epochColumn_instant (column : Option Int) :
    epochColumn (column.map .instant) = .ok column := by
  cases column <;> rfl

/-- A row read as a fact and bound again gives its own columns back. -/
theorem toRow_rowToFact (id : String) (row : Row) (status : MemoryStatus)
    (embedderId : Option String) :
    ({ rowToFact id row with status := some status } : Fact).toRow embedderId =
      .ok
        { row with
          status := status
          embedderId := embedderId
          lastAccessedAt := none
          accessCount := 0
          archived := false
          deletedAt := none
          sourceMessageIds := none
          strength := 1 } := by
  simp only [Fact.toRow, rowToFact, epochColumn_instant, toEpoch, Option.getD_some]

/-- What `toRow` makes of a fact, column by column. -/
structure Bound (fact : Fact) (embedderId : Option String) (row : Row) : Prop where
  userId : row.userId = fact.userId
  text : row.text = fact.text
  embedder : row.embedderId = embedderId
  validFrom : epochColumn fact.validFrom = .ok row.validFrom
  validTo : epochColumn fact.validTo = .ok row.validTo
  supersedes : row.supersedes = fact.supersedes
  supersededBy : row.supersededBy = fact.supersededBy
  status : row.status = fact.status.getD .active
  live : row.deletedAt = none
  unarchived : row.archived = false

theorem Fact.bound (ok : fact.toRow embedderId = .ok row) : Bound fact embedderId row := by
  rw [Fact.toRow] at ok
  split at ok
  · rename_i validFrom validTo _ _ from? to? _ _
    cases ok
    exact ⟨rfl, rfl, rfl, from?, to?, rfl, rfl, rfl, rfl, rfl⟩
  · cases ok

/-- The embedder of a row is the only column the embedding changes. -/
theorem toRow_embedder {fact : Fact} {embedderId : Option String} {row : Row}
    (ok : fact.toRow embedderId = .ok row) (other : Option String) :
    fact.toRow other = .ok { row with embedderId := other } := by
  rw [Fact.toRow] at ok ⊢
  split at ok
  · cases ok
    rfl
  · cases ok

theorem upsert_again (row : Row) : row.upsert { row with embedderId := none } = row := by
  cases row
  simp [Row.upsert]

namespace Store

@[simp] theorem insert_get (store : Store) (id other : String) (row : Row)
    (options : WriteOptions) :
    (store.insert id row options).facts.get other =
      if other = id then
        some (match store.facts.get id with
          | some old => old.upsert row
          | none => row)
      else store.facts.get other :=
  OrderedMap.get_set ..

@[simp] theorem close_get (store : Store) (oldId newId newText other : String)
    (closeAt now : Int) :
    (store.close oldId newId newText closeAt now).facts.get other =
      if other = oldId then (store.facts.get oldId).map (·.close newId closeAt now)
      else store.facts.get other := by
  rw [close, OrderedMap.get_modify]

theorem owns_iff {store : Store} {scope : Scope} {id : String} :
    store.owns scope id = true ↔
      ∃ row, store.facts.get id = some row ∧ row.userId = scope.userId := by
  rw [owns]
  cases store.facts.get id with
  | none => simp
  | some => simp

theorem setStatus_get (store : Store) (scope : Scope) (factId other : String)
    (status : MemoryStatus) (reason : Option String) (now : Int) :
    (store.setStatus scope factId status reason now).facts.get other =
      if other = factId ∧ store.owns scope factId then
        (store.facts.get other).map (·.setStatus status now)
      else store.facts.get other := by
  unfold setStatus
  by_cases owned : store.owns scope factId
  · rw [if_pos owned, OrderedMap.get_modify]
    by_cases here : other = factId
    · rw [if_pos here, if_pos ⟨here, owned⟩, here]
    · rw [if_neg here, if_neg fun both => here both.1]
  · rw [if_neg owned, if_neg fun both => owned both.2]

theorem rememberWithEmbedding_ok {registry : Registry} {store after : Store} {fact : Fact}
    {options : WriteOptions}
    (ok : store.rememberWithEmbedding registry fact options = .ok after) :
    ∃ row, fact.toRow (options.embedding.map (·.embedderId)) = .ok row ∧
      after = store.insert fact.id row options := by
  rw [rememberWithEmbedding] at ok
  cases payload? : options.embedding with
  | none =>
    rw [payload?] at ok
    cases row? : fact.toRow none with
    | error =>
      simp only [row?, Except.map] at ok
      cases ok
    | ok row =>
      simp only [row?, Except.map, Except.ok.injEq] at ok
      exact ⟨row, row?, ok.symm⟩
  | some payload =>
    simp only [payload?] at ok
    split at ok
    · cases ok
    · split at ok
      · cases ok
      · rename_i row row?
        split at ok
        · cases ok
        · cases ok
          exact ⟨row, row?, rfl⟩

theorem get_eq_some {store : Store} {id : String} {fact : Fact} :
    store.get id = some fact ↔
      ∃ row, store.facts.get id = some row ∧ row.deletedAt = none ∧
        rowToFact id row = fact := by
  rw [get]
  cases found : store.facts.get id with
  | none => simp
  | some row =>
    cases gone : row.deletedAt with
    | none => simp [gone]
    | some => simp [gone]

end Store

theorem commitFact_ok {env : Env} {store after : Store} {fact : Fact} {indexText : String}
    (ok : commitFact env store fact indexText = .ok after) :
    ∃ row options, fact.toRow (options.embedding.map (·.embedderId)) = .ok row ∧
      after = store.insert fact.id row options := by
  rw [commitFact] at ok
  split at ok
  · obtain ⟨row, bound, made⟩ := Store.rememberWithEmbedding_ok ok
    exact ⟨row, _, bound, made⟩
  · split at ok
    · cases ok
    · obtain ⟨row, bound, made⟩ := Store.rememberWithEmbedding_ok ok
      exact ⟨row, _, bound, made⟩
    · obtain ⟨row, bound, made⟩ := Store.rememberWithEmbedding_ok ok
      exact ⟨row, _, bound, made⟩

@[simp] theorem linkEntities_facts (env : Env) (store : Store) (fact : Fact) :
    (linkEntities env store fact).facts = store.facts := by
  rw [linkEntities]
  split
  · rfl
  · split <;> rfl

variable (detectMemoryInjection : String → Bool)

/-- How a call of `rememberWithDecision` ends. -/
inductive Remembered (env : Env) (scope : Scope) (input : FactInput)
    (options : FactRememberOptions) (store : Store) : Outcome RememberOutcome → Prop
  | failed (failure : Failure)
      (blocked : decide env store (newFact detectMemoryInjection env scope input options)
          options = .error failure ∨
        commitFact env store (newFact detectMemoryInjection env scope input options)
          (resolveIndexText env input options.indexText) = .error failure) :
      Remembered env scope input options store (.error failure, store)
  | dedup {stage existingId similarity reason} {fact : Fact}
      (decided : decide env store (newFact detectMemoryInjection env scope input options)
        options = .ok (.dedup stage existingId similarity reason)) :
      Remembered env scope input options store
        (.ok ⟨fact, .dedup stage existingId similarity reason, none⟩, store)
  | admitted {decision : ConflictDecision} {row : Row} {write : WriteOptions}
      (decided : decide env store (newFact detectMemoryInjection env scope input options)
        options = .ok decision)
      (plain : ∀ stage existingId reason, decision ≠ .supersede stage existingId reason)
      (saved : commitFact env store (newFact detectMemoryInjection env scope input options)
        (resolveIndexText env input options.indexText) =
          .ok (store.insert env.newId row write))
      (bound : (newFact detectMemoryInjection env scope input options).toRow
        (write.embedding.map (·.embedderId)) = .ok row) :
      Remembered env scope input options store
        (.ok ⟨newFact detectMemoryInjection env scope input options, decision,
            deriveReason detectMemoryInjection env input options⟩,
          linkEntities env (store.insert env.newId row write)
            (newFact detectMemoryInjection env scope input options))
  | closed {stage existingId reason} {row : Row} {column : Option Int} {write : WriteOptions}
      (decided : decide env store (newFact detectMemoryInjection env scope input options)
        options = .ok (.supersede stage existingId reason))
      (saved : commitFact env store (newFact detectMemoryInjection env scope input options)
        (resolveIndexText env input options.indexText) =
          .ok (store.insert env.newId row write))
      (bound : (newFact detectMemoryInjection env scope input options).toRow
        (write.embedding.map (·.embedderId)) = .ok row)
      (since : epochColumn (some (input.validFrom.getD (.instant env.now))) = .ok column) :
      Remembered env scope input options store
        (.ok ⟨newFact detectMemoryInjection env scope input options,
            .supersede stage existingId reason,
            deriveReason detectMemoryInjection env input options⟩,
          linkEntities env
            (((store.insert env.newId row write).insert env.newId
                { row with embedderId := none } {}).close existingId env.newId input.text
              (column.getD env.later) env.later)
            (newFact detectMemoryInjection env scope input options))

theorem rememberWithDecision_cases (env : Env) (scope : Scope) (input : FactInput)
    (options : FactRememberOptions) (store : Store) :
    Remembered detectMemoryInjection env scope input options store
      (rememberWithDecision detectMemoryInjection env scope input options store) := by
  unfold rememberWithDecision
  generalize fact? : newFact detectMemoryInjection env scope input options = fact
  generalize index? : resolveIndexText env input options.indexText = indexText
  dsimp only
  cases decided : decide env store fact options with
  | error failure => exact .failed failure (.inl (fact? ▸ decided))
  | ok decision =>
    have named : fact.id = env.newId := by
      rw [← fact?]
      rfl
    cases saved? : commitFact env store fact indexText with
    | error failure =>
      have failed : Remembered detectMemoryInjection env scope input options store
          (.error failure, store) := .failed failure (.inr (fact? ▸ index? ▸ saved?))
      cases decision with
      | dedup => exact .dedup (fact? ▸ decided)
      | admitted => exact failed
      | pending => exact failed
      | supersede => exact failed
    | ok saved =>
      obtain ⟨row, write, bound, rfl⟩ := commitFact_ok saved?
      subst fact?
      cases decision with
      | dedup => exact .dedup decided
      | admitted => exact .admitted decided (by intros; simp) (index? ▸ saved?) bound
      | pending => exact .admitted decided (by intros; simp) (index? ▸ saved?) bound
      | supersede _ existingId =>
        dsimp only
        have again := toRow_embedder bound none
        have since := (Fact.bound bound).validFrom
        have ok : (store.insert env.newId row write).supersede existingId
            (newFact detectMemoryInjection env scope input options) env.later =
            .ok (((store.insert env.newId row write).insert env.newId
              { row with embedderId := none } {}).close existingId env.newId
              input.text (row.validFrom.getD env.later) env.later) := by
          rw [Store.supersede, Store.closeAt, since]
          simp only [Except.map, Store.remember, again]
          rfl
        rw [named, ok]
        exact .closed decided (index? ▸ saved?) bound since

def Store.view (store : Store) : String → Option Row := store.facts.get

/-- The row of `oldId` closed in favour of `newId`. -/
def shut (view : String → Option Row) (oldId newId : String) (closeAt now : Int) :
    String → Option Row :=
  Function.update view oldId ((view oldId).map (·.close newId closeAt now))

theorem view_insert {store : Store} {id : String} {row : Row} {options : WriteOptions}
    (fresh : store.view id = none) :
    (store.insert id row options).view = Function.update store.view id (some row) := by
  funext other
  rw [Store.view] at fresh
  rw [Store.view, Store.insert_get, fresh, Function.update_apply]
  rfl

theorem view_insert_again {store : Store} {id : String} {row : Row}
    {options : WriteOptions} (there : store.view id = some row) :
    (store.insert id { row with embedderId := none } options).view = store.view := by
  funext other
  rw [Store.view] at there
  rw [Store.view, Store.insert_get, there]
  by_cases here : other = id
  · rw [if_pos here, here, Store.view, there]
    exact congrArg some (upsert_again row)
  · rw [if_neg here]
    rfl

theorem view_close (store : Store) (oldId newId newText : String) (closeAt now : Int) :
    (store.close oldId newId newText closeAt now).view =
      shut store.view oldId newId closeAt now := by
  funext other
  rw [Store.view, Store.close_get, shut, Function.update_apply]
  rfl

theorem view_linkEntities (env : Env) (store : Store) (fact : Fact) :
    (linkEntities env store fact).view = store.view := by
  rw [Store.view, linkEntities_facts]
  rfl

theorem view_closing {saved : Store} {base : String → Option Row}
    {id oldId newText : String} {row : Row} {again : WriteOptions} {closeAt now : Int}
    (written : saved.view = Function.update base id (some row)) :
    ((saved.insert id { row with embedderId := none } again).close oldId id newText
        closeAt now).view =
      shut (Function.update base id (some row)) oldId id closeAt now := by
  rw [view_close, view_insert_again, written]
  rw [written, Function.update_self]

inductive Wrote (env : Env) (fact : Fact) (before : String → Option Row) :
    (String → Option Row) → Prop
  | nothing : Wrote env fact before before
  | fact {row : Row} {embedderId : Option String} (bound : Bound fact embedderId row) :
      Wrote env fact before (Function.update before env.newId (some row))
  | closing {row : Row} {embedderId : Option String} (oldId : String)
      (bound : Bound fact embedderId row) :
      Wrote env fact before
        (shut (Function.update before env.newId (some row)) oldId env.newId
          (row.validFrom.getD env.later) env.later)

theorem Remembered.wrote {env : Env} {scope : Scope} {input : FactInput}
    {options : FactRememberOptions} {store : Store} {outcome : Outcome RememberOutcome}
    (ended : Remembered detectMemoryInjection env scope input options store outcome)
    (fresh : store.view env.newId = none) :
    Wrote env (newFact detectMemoryInjection env scope input options) store.view
      outcome.2.view := by
  cases ended with
  | failed => exact .nothing
  | dedup => exact .nothing
  | admitted decided plain saved bound =>
    rw [view_linkEntities, view_insert fresh]
    exact .fact (Fact.bound bound)
  | closed decided saved bound since =>
    rw [view_linkEntities, view_closing (view_insert fresh)]
    have column := (Fact.bound bound).validFrom
    rw [newFact] at column
    dsimp only at column
    rw [since] at column
    cases column
    exact .closing _ (Fact.bound bound)

/-- The input of an explicit supersede, as `remember` gets it. -/
def successorInput (oldId : String) (input : FactInput) : FactInput :=
  { input with supersedes := some oldId }

def successorOptions (autoPromoteSynthesized : Bool) : FactRememberOptions :=
  { pipelineOff := true, autoPromoteSynthesized := autoPromoteSynthesized }

/-- The fact an explicit supersede writes. -/
def successor (env : Env) (scope : Scope) (oldId : String) (input : FactInput)
    (autoPromoteSynthesized : Bool) : Fact :=
  newFact detectMemoryInjection env scope (successorInput oldId input)
    (successorOptions autoPromoteSynthesized)

inductive Superseded (env : Env) (scope : Scope) (oldId : String) (input : FactInput)
    (auto : Bool) (store : Store) : Outcome Fact → Prop
  | failed (failure : Failure) :
      Superseded env scope oldId input auto store (.error failure, store)
  | deferred {row : Row} {write : WriteOptions}
      (waits : (successor detectMemoryInjection env scope oldId input auto).status =
        some .quarantined)
      (bound : (successor detectMemoryInjection env scope oldId input auto).toRow
        (write.embedding.map (·.embedderId)) = .ok row) :
      Superseded env scope oldId input auto store
        (.ok (successor detectMemoryInjection env scope oldId input auto),
          linkEntities env (store.insert env.newId row write)
            (successor detectMemoryInjection env scope oldId input auto))
  | closed {row : Row} {write : WriteOptions}
      (acts : (successor detectMemoryInjection env scope oldId input auto).status ≠
        some .quarantined)
      (saved : commitFact env store
        (successor detectMemoryInjection env scope oldId input auto)
        (resolveIndexText env (successorInput oldId input) none) =
          .ok (store.insert env.newId row write))
      (bound : (successor detectMemoryInjection env scope oldId input auto).toRow
        (write.embedding.map (·.embedderId)) = .ok row) :
      Superseded env scope oldId input auto store
        (.ok (successor detectMemoryInjection env scope oldId input auto),
          ((linkEntities env (store.insert env.newId row write)
              (successor detectMemoryInjection env scope oldId input auto)).insert env.newId
                { row with embedderId := none } {}).close oldId env.newId input.text
            (row.validFrom.getD env.later) env.later)

theorem supersede_cases (env : Env) (scope : Scope) (oldId : String) (input : FactInput)
    (auto : Bool) (store : Store) :
    Superseded detectMemoryInjection env scope oldId input auto store
      (supersede detectMemoryInjection env scope oldId input auto store) := by
  have ended := rememberWithDecision_cases detectMemoryInjection env scope
    (successorInput oldId input) (successorOptions auto) store
  have admits : ∀ fact, decide env store fact (successorOptions auto) =
      .ok (.admitted .exactDedup (some "pipeline-skipped")) := by
    intro fact
    rw [decide]
    cases env.pipeline <;> rfl
  obtain ⟨outcome, called⟩ : ∃ outcome, rememberWithDecision detectMemoryInjection env scope
    (successorInput oldId input) (successorOptions auto) store = outcome := ⟨_, rfl⟩
  rw [called] at ended
  unfold supersede
  rw [show rememberWithDecision detectMemoryInjection env scope
    { input with supersedes := some oldId }
    { pipelineOff := true, autoPromoteSynthesized := auto } store = outcome from called]
  cases ended with
  | failed failure => exact .failed failure
  | dedup decided =>
    rw [admits] at decided
    cases decided
  | closed decided =>
    rw [admits] at decided
    cases decided
  | @admitted decision row write decided plain saved bound =>
    change Superseded detectMemoryInjection env scope oldId input auto store
      (if (successor detectMemoryInjection env scope oldId input auto).status =
          some .quarantined then _ else _)
    split
    · rename_i waits
      exact .deferred waits bound
    · rename_i acts
      have again := toRow_embedder bound none
      have since := (Fact.bound bound).validFrom
      have ok (saved : Store) : saved.supersede oldId
          (newFact detectMemoryInjection env scope (successorInput oldId input)
            (successorOptions auto)) env.later =
          .ok ((saved.insert env.newId { row with embedderId := none } {}).close oldId
            env.newId input.text (row.validFrom.getD env.later) env.later) := by
        rw [Store.supersede, Store.closeAt, since]
        simp only [Except.map, Store.remember, again]
        rfl
      dsimp only
      rw [ok]
      exact .closed acts saved bound

theorem Superseded.wrote {env : Env} {scope : Scope} {oldId : String} {input : FactInput}
    {auto : Bool} {store : Store} {outcome : Outcome Fact}
    (ended : Superseded detectMemoryInjection env scope oldId input auto store outcome)
    (fresh : store.view env.newId = none) :
    Wrote env (successor detectMemoryInjection env scope oldId input auto) store.view
      outcome.2.view := by
  cases ended with
  | failed => exact .nothing
  | deferred _ bound =>
    rw [view_linkEntities, view_insert fresh]
    exact .fact (Fact.bound bound)
  | closed acts saved bound =>
    rw [view_closing ((view_linkEntities ..).trans (view_insert fresh))]
    exact .closing _ (Fact.bound bound)

theorem view_setStatus (store : Store) (scope : Scope) (factId : String)
    (status : MemoryStatus) (reason : Option String) (now : Int) (id : String) :
    (store.setStatus scope factId status reason now).view id =
      if id = factId ∧ store.owns scope factId then
        (store.view id).map (·.setStatus status now)
      else store.view id :=
  Store.setStatus_get ..

structure Open (row : Row) : Prop where
  live : row.deletedAt = none
  unsuperseded : row.supersededBy = none
  unended : row.validTo = none

def Row.promoted (row : Row) : Row := { row with status := .active }

/-- How a call of `validate` ends. -/
inductive Validated (scope : Scope) (factId : String) (reason : Option String)
    (force : Bool) (now : Int) (store : Store) : Outcome Unit → Prop
  | unread (unread : store.get factId = none) :
      Validated scope factId reason force now store
        (.ok (), store.setStatus scope factId .active reason now)
  | refused {row : Row} (there : store.view factId = some row)
      (live : row.deletedAt = none) (unforced : force = false)
      (flagged : detectMemoryInjection row.text = true) :
      Validated scope factId reason force now store
        (.error (.promotionRefused factId), store)
  | promoted {row : Row} (there : store.view factId = some row)
      (live : row.deletedAt = none)
      (passes : force = true ∨ detectMemoryInjection row.text = false) :
      Validated scope factId reason force now store
        (.ok (), store.setStatus scope factId .active reason now)
  | completed {row oldRow : Row} {oldId : String} (there : store.view factId = some row)
      (live : row.deletedAt = none)
      (passes : force = true ∨ detectMemoryInjection row.text = false)
      (link : row.supersedes = some oldId) (old : store.view oldId = some oldRow)
      (waiting : Open oldRow) :
      Validated scope factId reason force now store
        (.ok (), ((store.setStatus scope factId .active reason now).insert factId
            { row.promoted with
              embedderId := none
              lastAccessedAt := none
              accessCount := 0
              archived := false
              deletedAt := none
              sourceMessageIds := none
              strength := 1 } {}).close oldId factId row.text
            (row.validFrom.getD now) now)

theorem open_of_setStatus {store : Store} {scope : Scope} {factId oldId : String}
    {reason : Option String} {now : Int} {row : Row}
    (there : (store.setStatus scope factId .active reason now).view oldId = some row)
    (waiting : Open row) :
    ∃ before, store.view oldId = some before ∧ Open before := by
  rw [view_setStatus] at there
  split at there
  · obtain ⟨before, found, rfl⟩ := Option.map_eq_some_iff.mp there
    exact ⟨before, found, waiting.live, waiting.unsuperseded, waiting.unended⟩
  · exact ⟨row, there, waiting⟩

theorem validate_cases (scope : Scope) (factId : String) (reason : Option String)
    (force : Bool) (now : Int) (store : Store) :
    Validated detectMemoryInjection scope factId reason force now store
      (validate detectMemoryInjection scope factId reason force now store) := by
  unfold validate
  cases read : store.get factId with
  | none => exact .unread read
  | some existing =>
    obtain ⟨row, there, live, rfl⟩ := Store.get_eq_some.mp read
    dsimp only
    split
    · rename_i refuses
      rw [Bool.and_eq_true, Bool.not_eq_true'] at refuses
      exact .refused there live refuses.1 refuses.2
    · rename_i passes
      have passes : force = true ∨ detectMemoryInjection row.text = false := by
        cases force with
        | true => exact .inl rfl
        | false => exact .inr (by simpa [rowToFact] using passes)
      unfold completePending
      split
      · exact .promoted there live passes
      · rename_i oldId link
        split
        · exact .promoted there live passes
        · rename_i oldFact oldRead
          obtain ⟨oldRow, oldThere, oldLive, rfl⟩ := Store.get_eq_some.mp oldRead
          split
          · rename_i stillOpen
            rw [Bool.and_eq_true] at stillOpen
            have waiting : Open oldRow :=
              ⟨oldLive, by simpa [rowToFact] using stillOpen.1,
                by simpa [rowToFact] using stillOpen.2⟩
            obtain ⟨before, found, open'⟩ := open_of_setStatus oldThere waiting
            have ok (saved : Store) : saved.supersede oldId
                { rowToFact factId row with status := some .active } now =
                .ok ((saved.insert factId
                  { row.promoted with
                    embedderId := none
                    lastAccessedAt := none
                    accessCount := 0
                    archived := false
                    deletedAt := none
                    sourceMessageIds := none
                    strength := 1 } {}).close oldId factId row.text
                  (row.validFrom.getD now) now) := by
              rw [Store.supersede, Store.closeAt]
              simp only [Store.remember, toRow_rowToFact]
              simp only [rowToFact, epochColumn_instant, Except.map]
              rfl
            rw [ok]
            exact .completed there live passes link found open'
          · exact .promoted there live passes

theorem view_completed {store : Store} {scope : Scope} {factId oldId : String}
    {reason : Option String} {now at' : Int} {row : Row}
    (there : store.view factId = some row) :
    (((store.setStatus scope factId .active reason now).insert factId
        { row.promoted with
          embedderId := none
          lastAccessedAt := none
          accessCount := 0
          archived := false
          deletedAt := none
          sourceMessageIds := none
          strength := 1 } {}).close oldId factId row.text at' now).view =
      shut (Function.update store.view factId (some row.promoted)) oldId factId at' now := by
  rw [view_close]
  congr 1
  funext other
  rw [Store.view, Store.insert_get, Function.update_apply, ← Store.view]
  by_cases here : other = factId
  · rw [if_pos here, if_pos here, view_setStatus, there]
    by_cases owned : store.owns scope factId
    · simp [owned, Row.upsert, Row.promoted, Row.setStatus]
    · simp [owned, Row.upsert, Row.promoted]
  · rw [if_neg here, if_neg here, view_setStatus, if_neg fun both => here both.1]

inductive Op
  | remember (env : Env) (scope : Scope) (input : FactInput) (options : FactRememberOptions)
  | supersede (env : Env) (scope : Scope) (oldId : String) (input : FactInput)
      (autoPromoteSynthesized : Bool)
  | validate (scope : Scope) (factId : String) (reason : Option String) (force : Bool)
      (now : Int)
  | promote (scope : Scope) (policy : ResolvedPromotionPolicy) (now : Int)
  | forget (scope : Scope) (factId : String) (now : Int)
  | purge (scope : Scope) (factId : String) (reason : Option String) (now : Int)
  | search (env : SearchEnv) (scope : Scope) (query : String) (options : FactSearchOptions)

def Op.apply (store : Store) : Op → Store
  | .remember env scope input options =>
    (rememberWithDecision detectMemoryInjection env scope input options store).2
  | .supersede env scope oldId input auto =>
    (Memory.supersede detectMemoryInjection env scope oldId input auto store).2
  | .validate scope factId reason force now =>
    (Memory.validate detectMemoryInjection scope factId reason force now store).2
  | .promote scope policy now =>
    (runPromotionStep detectMemoryInjection scope policy now store).2
  | .forget scope factId now => store.forget scope factId now
  | .purge scope factId reason now => store.purge scope factId reason now
  | .search env scope query options => (Memory.search env scope query options store).2

def run (store : Store) (ops : List Op) : Store :=
  ops.foldl (Op.apply detectMemoryInjection) store

def Op.scope : Op → Scope
  | .remember _ scope .. | .supersede _ scope .. | .validate scope .. | .promote scope ..
  | .forget scope .. | .purge scope .. | .search _ scope .. => scope

/-- The id a call draws. -/
def Op.newId : Op → Option String
  | .remember env .. | .supersede env .. => some env.newId
  | _ => none

/-- The ids a run draws are new: none is drawn twice, none is in the store yet. -/
structure Drawn (store : Store) (ops : List Op) : Prop where
  once : (ops.filterMap Op.newId).Nodup
  absent : ∀ id ∈ ops.filterMap Op.newId, store.view id = none

variable {detectMemoryInjection}

@[simp] theorem shut_self (view : String → Option Row) (oldId newId : String)
    (closeAt now : Int) : shut view oldId newId closeAt now oldId =
      (view oldId).map (·.close newId closeAt now) :=
  Function.update_self ..

theorem shut_other {view : String → Option Row} {oldId newId id : String}
    {closeAt now : Int} (apart : id ≠ oldId) :
    shut view oldId newId closeAt now id = view id :=
  Function.update_of_ne apart ..

theorem shut_status {view : String → Option Row} {oldId newId id : String}
    {closeAt now : Int} {row' : Row}
    (there : shut view oldId newId closeAt now id = some row') :
    ∃ row, view id = some row ∧ row.status = row'.status := by
  by_cases here : id = oldId
  · rw [here, shut_self] at there
    obtain ⟨row, found, rfl⟩ := Option.map_eq_some_iff.mp there
    exact ⟨row, here ▸ found, rfl⟩
  · rw [shut_other here] at there
    exact ⟨row', there, rfl⟩

theorem shut_of_status {view : String → Option Row} {id : String} {row : Row}
    (there : view id = some row) (oldId newId : String) (closeAt now : Int) :
    ∃ row', shut view oldId newId closeAt now id = some row' ∧
      row'.status = row.status := by
  by_cases here : id = oldId
  · subst here
    exact ⟨row.close newId closeAt now, by rw [shut_self, there]; rfl, rfl⟩
  · exact ⟨row, by rw [shut_other here, there], rfl⟩

theorem Wrote.absent {env : Env} {fact : Fact} {before after : String → Option Row}
    (wrote : Wrote env fact before after) {id : String} (gone : before id = none)
    (other : id ≠ env.newId) : after id = none := by
  cases wrote with
  | nothing => exact gone
  | fact => rw [Function.update_of_ne other, gone]
  | closing oldId =>
    by_cases here : id = oldId
    · rw [here, shut_self, ← here, Function.update_of_ne other, gone]
      rfl
    · rw [shut_other here, Function.update_of_ne other, gone]

theorem Validated.absent {scope : Scope} {factId : String} {reason : Option String}
    {force : Bool} {now : Int} {store : Store} {outcome : Outcome Unit}
    (ended : Validated detectMemoryInjection scope factId reason force now store outcome)
    {id : String} (gone : store.view id = none) : outcome.2.view id = none := by
  have status : (store.setStatus scope factId .active reason now).view id = none := by
    rw [view_setStatus, gone]
    split <;> rfl
  cases ended with
  | unread => exact status
  | refused => exact gone
  | promoted => exact status
  | @completed row oldRow oldId there live passes link old waiting =>
    have other : id ≠ factId := by
      rintro rfl
      rw [gone] at there
      cases there
    rw [view_completed there]
    by_cases here : id = oldId
    · rw [here, old] at gone
      cases gone
    · rw [shut_other here, Function.update_of_ne other, gone]

theorem promoteEach_absent {scope : Scope} {policy : ResolvedPromotionPolicy} {now : Int}
    {id : String} (candidates : List PromotionCandidate) (promoted : Nat) (store : Store)
    (gone : store.view id = none) :
    (promoteEach detectMemoryInjection scope policy now candidates promoted store).2.view id =
      none := by
  induction candidates generalizing promoted store with
  | nil => exact gone
  | cons candidate rest ih =>
    rw [promoteEach]
    split
    · exact gone
    · split
      · have next := (validate_cases detectMemoryInjection scope candidate.fact.id
          (some "promotion-policy") false now store).absent gone
        split
        · rename_i validated
          rw [validated] at next
          exact ih _ _ next
        · rename_i refused
          rw [refused] at next
          exact ih _ _ next
      · exact ih _ _ gone

structure Noted (userId : String) (row row' : Row) : Prop where
  same : row' = { row with
    lastAccessedAt := row'.lastAccessedAt, accessCount := row'.accessCount,
    strength := row'.strength }
  foreign : row.userId ≠ userId → row' = row

theorem Noted.refl (userId : String) (row : Row) : Noted userId row row := ⟨rfl, fun _ => rfl⟩

theorem Noted.trans (first : Noted userId row row') (second : Noted userId row' row'') :
    Noted userId row row''  where
  same := by
    rw [second.same, first.same]
  foreign apart := by
    have owner : row'.userId = row.userId := by rw [first.same]
    rw [second.foreign (owner ▸ apart), first.foreign apart]

theorem noteQuery_view (store : Store) (scope : Scope) (queryHash : String) (now : Int)
    (id : String) : (store.noteQuery scope queryHash now id).view = store.view := by
  rw [Store.noteQuery]
  split
  · split <;> rfl
  · rfl

theorem noteQueries_view (scope : Scope) (queryHash : String) (now : Int)
    (ids : List String) (store : Store) :
    (ids.foldl (fun store id => store.noteQuery scope queryHash now id) store).view =
      store.view := by
  induction ids generalizing store with
  | nil => rfl
  | cons id rest ih => rw [List.foldl_cons, ih, noteQuery_view]

theorem access_noted (userId : String) (now : Int) (row : Row) :
    Noted userId row (row.access userId now) := by
  rw [Row.access]
  split
  · rename_i own
    exact ⟨rfl, fun apart => absurd own apart⟩
  · exact .refl userId row

theorem stamped (userId : String) (now : Int) (id : String) (ids : List String)
    (facts : OrderedMap String Row) :
    ∃ change : Row → Row, (∀ row, Noted userId row (change row)) ∧
      (ids.foldl (fun facts id => facts.modify id fun row => row.access userId now)
        facts).get id = (facts.get id).map change := by
  induction ids generalizing facts with
  | nil => exact ⟨fun row => row, .refl userId, Option.map_id'.symm⟩
  | cons head _ ih =>
    obtain ⟨later, noted, rest'⟩ := ih (facts.modify head fun row => row.access userId now)
    rw [List.foldl_cons, rest', OrderedMap.get_modify]
    by_cases here : id = head
    · refine ⟨fun row => later (row.access userId now),
        fun row => (access_noted userId now row).trans (noted _), ?_⟩
      rw [if_pos here, Option.map_map, here]
      rfl
    · exact ⟨later, noted, by rw [if_neg here]⟩

theorem markAccessed_noted (store : Store) (scope : Scope) (ids : List String)
    (queryHash : String) (now : Int) (id : String) :
    ∃ change : Row → Row, (∀ row, Noted scope.userId row (change row)) ∧
      (store.markAccessed scope ids queryHash now).view id = (store.view id).map change := by
  obtain ⟨change, noted, shown⟩ := stamped scope.userId now id ids.dedup store.facts
  refine ⟨change, noted, ?_⟩
  rw [Store.markAccessed]
  split
  · exact shown
  · rw [noteQueries_view]
    exact shown

theorem search_noted (env : SearchEnv) (scope : Scope) (query : String)
    (options : FactSearchOptions) (store : Store) (id : String) :
    ∃ change : Row → Row, (∀ row, Noted scope.userId row (change row)) ∧
      (search env scope query options store).2.view id = (store.view id).map change := by
  have same : ∃ change : Row → Row, (∀ row, Noted scope.userId row (change row)) ∧
      store.view id = (store.view id).map change :=
    ⟨fun row => row, .refl scope.userId, Option.map_id'.symm⟩
  rw [search]
  split
  · exact same
  · dsimp only
    split
    · exact same
    · exact markAccessed_noted ..

theorem forget_view (store : Store) (scope : Scope) (factId : String) (now : Int)
    (id : String) :
    (store.forget scope factId now).view id =
      if id = factId ∧ store.owns scope factId then
        (store.view id).map fun row => { row with deletedAt := some now, archived := true }
      else store.view id := by
  unfold Store.forget
  by_cases owned : store.owns scope factId
  · rw [if_pos owned]
    by_cases here : id = factId
    · rw [if_pos ⟨here, owned⟩, here]
      exact (OrderedMap.get_modify ..).trans (if_pos rfl)
    · rw [if_neg fun both => here both.1]
      exact (OrderedMap.get_modify ..).trans (if_neg here)
  · rw [if_neg owned, if_neg fun both => owned both.2]

theorem purge_view (store : Store) (scope : Scope) (factId : String)
    (reason : Option String) (now : Int) (id : String) :
    (store.purge scope factId reason now).view id =
      if id = factId ∧ store.owns scope factId then none else store.view id := by
  unfold Store.purge Store.owns
  cases found : store.facts.get factId with
  | none => simp
  | some row =>
    dsimp only [Option.any_some]
    by_cases owned : row.userId = scope.userId
    · rw [if_pos owned]
      refine (OrderedMap.get_delete ..).trans ?_
      simp [owned, Store.view]
    · simp [owned]

theorem Op.absent {op : Op} {store : Store} {id : String}
    (fresh : ∀ drawn, op.newId = some drawn → store.view drawn = none)
    (gone : store.view id = none) (other : op.newId ≠ some id) :
    (op.apply detectMemoryInjection store).view id = none := by
  cases op with
  | remember env scope input options =>
    exact ((rememberWithDecision_cases detectMemoryInjection env scope input options
      store).wrote detectMemoryInjection (fresh _ rfl)).absent gone
        fun here => other (congrArg some here.symm)
  | supersede env scope oldId input auto =>
    exact ((supersede_cases detectMemoryInjection env scope oldId input auto
      store).wrote detectMemoryInjection (fresh _ rfl)).absent gone
        fun here => other (congrArg some here.symm)
  | validate scope factId reason force now =>
    exact (validate_cases detectMemoryInjection scope factId reason force now store).absent
      gone
  | promote => exact promoteEach_absent _ _ _ gone
  | forget =>
    refine (forget_view ..).trans ?_
    rw [gone]
    split <;> rfl
  | purge =>
    refine (purge_view ..).trans ?_
    rw [gone]
    split <;> rfl
  | search env scope query options =>
    obtain ⟨change, _, shown⟩ := search_noted env scope query options store id
    refine shown.trans ?_
    rw [gone]
    rfl

theorem Drawn.fresh (drawn : Drawn store (op :: rest)) :
    ∀ id, op.newId = some id → store.view id = none := fun id draws =>
  drawn.absent id (List.mem_filterMap.mpr ⟨op, List.mem_cons_self, draws⟩)

theorem Drawn.next {store : Store} {op : Op} {rest : List Op}
    (drawn : Drawn store (op :: rest)) :
    Drawn (op.apply detectMemoryInjection store) rest where
  once := by
    have once := drawn.once
    rw [List.filterMap_cons] at once
    split at once
    · exact once
    · exact (List.nodup_cons.mp once).2
  absent id listed := by
    refine Op.absent drawn.fresh (drawn.absent id ?_) ?_
    · obtain ⟨later, there, draws⟩ := List.mem_filterMap.mp listed
      exact List.mem_filterMap.mpr ⟨later, List.mem_cons_of_mem _ there, draws⟩
    · intro draws
      have once := drawn.once
      rw [List.filterMap_cons_some draws] at once
      exact (List.nodup_cons.mp once).1 listed

theorem run_append (store : Store) (first second : List Op) :
    run detectMemoryInjection store (first ++ second) =
      run detectMemoryInjection (run detectMemoryInjection store first) second :=
  List.foldl_append ..

theorem Drawn.after (drawn : Drawn store (before ++ rest)) :
    Drawn (run detectMemoryInjection store before) rest := by
  induction before generalizing store with
  | nil => exact drawn
  | cons op before ih => exact ih drawn.next

/-- A call of a run, with the store it starts from. -/
def Called (detectMemoryInjection : String → Bool) (store : Store) (ops : List Op)
    (op : Op) (reached : Store) : Prop :=
  ∃ before rest, ops = before ++ op :: rest ∧
    reached = run detectMemoryInjection store before

theorem Called.fresh (called : Called detectMemoryInjection store ops op reached)
    (drawn : Drawn store ops) :
    ∀ id, op.newId = some id → reached.view id = none := by
  obtain ⟨before, rest, rfl, rfl⟩ := called
  exact (Drawn.after drawn).fresh

theorem Called.mem (called : Called detectMemoryInjection store ops op reached) :
    op ∈ ops := by
  obtain ⟨before, rest, rfl, rfl⟩ := called
  simp

end Graphorin.Memory
