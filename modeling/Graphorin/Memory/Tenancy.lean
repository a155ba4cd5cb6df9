import Graphorin.Memory.Displacement
import Graphorin.Memory.Reading
import Mathlib.Data.List.Induction

namespace Graphorin.Memory

open Lib

/-! What the calls of one user leave of the facts of the others. -/

variable {detectMemoryInjection : String → Bool}

def Foreign (userId : String) (store : Store) (id : String) : Prop :=
  ∃ row, store.view id = some row ∧ row.userId ≠ userId

/-- The rows, texts, vectors and history of foreign facts are as they were. -/
structure Untouched (userId : String) (before after : Store) : Prop where
  rows : ∀ id row, row.userId ≠ userId →
    (before.view id = some row ↔ after.view id = some row)
  texts : ∀ id, Foreign userId before id → after.index.get id = before.index.get id
  vectors : ∀ id, Foreign userId before id → ∀ embedderId,
    after.vectors.get (embedderId, id) = before.vectors.get (embedderId, id)
  history : ∀ id, Foreign userId before id →
    (after.history.filter fun entry => entry.memoryId = id) =
      before.history.filter fun entry => entry.memoryId = id

variable {userId : String} {store before after : Store}

variable {id : String}

theorem Untouched.foreign (untouched : Untouched userId before after) :
    Foreign userId before id ↔ Foreign userId after id := by
  constructor
  · rintro ⟨row, there, foreign⟩
    exact ⟨row, (untouched.rows id row foreign).mp there, foreign⟩
  · rintro ⟨row, there, foreign⟩
    exact ⟨row, (untouched.rows id row foreign).mpr there, foreign⟩

theorem Untouched.refl (userId : String) (store : Store) : Untouched userId store store :=
  ⟨fun _ _ _ => Iff.rfl, fun _ _ => rfl, fun _ _ _ => rfl, fun _ _ => rfl⟩

theorem Untouched.trans (first : Untouched userId before middle)
    (second : Untouched userId middle after) : Untouched userId before after where
  rows id row foreign := (first.rows id row foreign).trans (second.rows id row foreign)
  texts id foreign :=
    (second.texts id (first.foreign.mp foreign)).trans (first.texts id foreign)
  vectors id foreign embedderId :=
    (second.vectors id (first.foreign.mp foreign) embedderId).trans
      (first.vectors id foreign embedderId)
  history id foreign :=
    (second.history id (first.foreign.mp foreign)).trans (first.history id foreign)

/-- A change of the rows that keeps to facts that are not foreign. -/
theorem rows_of_change (change : Row → Row) {at' : String} {view : String → Option Row}
    (own : ¬ Foreign userId store at')
    (shown : ∀ id, view id =
      if id = at' then (store.view id).map change else store.view id)
    (owner : ∀ row, (change row).userId = row.userId) :
    ∀ id row, row.userId ≠ userId → (store.view id = some row ↔ view id = some row) := by
  intro id row foreign
  rw [shown]
  by_cases here : id = at'
  · subst here
    rw [if_pos rfl]
    constructor
    · intro there
      exact absurd ⟨row, there, foreign⟩ own
    · intro there
      obtain ⟨old, found, rfl⟩ := Option.map_eq_some_iff.mp there
      rw [owner] at foreign
      exact absurd ⟨old, found, foreign⟩ own
  · rw [if_neg here]

variable {row : Row}

theorem untouched_insert (options : WriteOptions) (own : ¬ Foreign userId store id)
    (mine : row.userId = userId) :
    Untouched userId store (store.insert id row options) where
  rows other row' foreign := by
    rw [Store.view, Store.view, Store.insert_get]
    by_cases here : other = id
    · subst here
      rw [if_pos rfl]
      constructor
      · intro there
        exact absurd ⟨row', there, foreign⟩ own
      · intro there
        cases found : store.facts.get other with
        | none =>
          rw [found] at there
          cases there
          exact absurd mine foreign
        | some old =>
          rw [found] at there
          cases there
          exact absurd ⟨old, found, foreign⟩ own
    · rw [if_neg here]
  texts other foreign := by
    have apart : other ≠ id := by
      rintro rfl
      exact own foreign
    exact (OrderedMap.get_set ..).trans (if_neg apart)
  vectors other foreign embedderId := by
    have apart : other ≠ id := by
      rintro rfl
      exact own foreign
    rw [Store.insert]
    dsimp only
    split
    · exact (OrderedMap.get_set ..).trans (if_neg fun same => apart (congrArg Prod.snd same))
    · rfl
  history other foreign := rfl

variable {history : List HistoryRow}

theorem filter_apart (own : ¬ Foreign userId store entry.memoryId)
    (foreign : Foreign userId store id) :
    ((history ++ [entry]).filter fun entry => entry.memoryId = id) =
      history.filter fun entry => entry.memoryId = id := by
  have apart : entry.memoryId ≠ id := by
    rintro rfl
    exact own foreign
  simp [List.filter_append, apart]

variable {now : Int}

theorem untouched_close {oldId newId newText : String} {closeAt : Int}
    (own : ¬ Foreign userId store oldId) :
    Untouched userId store (store.close oldId newId newText closeAt now) where
  rows := by
    refine rows_of_change (fun row => row.close newId closeAt now) own
      (fun id => ?_) fun _ => rfl
    rw [Store.view, Store.close_get]
    by_cases here : id = oldId
    · rw [if_pos here, if_pos here, here]
      rfl
    · rw [if_neg here, if_neg here]
      rfl
  texts _ _ := rfl
  vectors _ _ _ := rfl
  history id foreign := filter_apart own foreign

theorem untouched_linkEntities (env : Env) (fact : Fact) :
    Untouched userId store (linkEntities env store fact) := by
  rw [linkEntities]
  split
  · exact .refl userId store
  · split
    · exact .refl userId store
    · exact ⟨fun _ _ _ => Iff.rfl, fun _ _ => rfl, fun _ _ _ => rfl, fun _ _ => rfl⟩

variable {scope : Scope}

theorem not_foreign_of_owns (owned : store.owns scope id = true) :
    ¬ Foreign scope.userId store id := by
  rintro ⟨row, there, foreign⟩
  obtain ⟨row', found, mine⟩ := Store.owns_iff.mp owned
  rw [Store.view, found] at there
  cases there
  exact foreign mine

theorem untouched_setStatus (scope : Scope) (factId : String) (reason : Option String)
    (now : Int) :
    Untouched scope.userId store (store.setStatus scope factId .active reason now) := by
  by_cases owned : store.owns scope factId
  · have own := not_foreign_of_owns owned
    refine ⟨rows_of_change (fun row => row.setStatus .active now) own ?_
      fun _ => rfl, ?_, ?_, ?_⟩
    · intro id
      rw [view_setStatus]
      simp only [owned, and_true]
    · intro id foreign
      simp [Store.setStatus, owned]
    · intro id foreign embedderId
      simp [Store.setStatus, owned]
    · intro id foreign
      unfold Store.setStatus
      rw [if_pos owned]
      exact filter_apart own foreign
  · unfold Store.setStatus
    rw [if_neg owned]
    exact .refl ..

theorem dropVectors_get (store : Store) (id : String) (key : String × String)
    (apart : key.2 ≠ id) : (store.dropVectors id).vectors.get key = store.vectors.get key := by
  rw [Store.dropVectors, OrderedMap.get_deleteAll, if_neg]
  intro dropped
  have same := (List.mem_filter.mp dropped).2
  exact apart (by simpa using same)

theorem untouched_forget (scope : Scope) (factId : String) (now : Int) :
    Untouched scope.userId store (store.forget scope factId now) := by
  by_cases owned : store.owns scope factId
  · have own := not_foreign_of_owns owned
    refine ⟨rows_of_change
      (fun row => { row with deletedAt := some now, archived := true }) own ?_
      fun _ => rfl, ?_, ?_, ?_⟩
    · intro id
      rw [forget_view]
      simp only [owned, and_true]
    · intro id foreign
      simp [Store.forget, owned, Store.dropVectors]
    · intro id foreign embedderId
      unfold Store.forget
      rw [if_pos owned]
      refine dropVectors_get store factId (embedderId, id) ?_
      rintro rfl
      exact own foreign
    · intro id foreign
      simp [Store.forget, owned, Store.dropVectors]
  · unfold Store.forget
    rw [if_neg owned]
    exact .refl ..

def Echoes (userId : String) (store : Store) (text : String) : Prop :=
  ∃ entry ∈ store.history, Foreign userId store entry.memoryId ∧
    (entry.prevValue = some text ∨ entry.newValue = some text)

variable {text : String}

theorem scrub_apart {entry : HistoryRow} (apart : entry.memoryId ≠ id)
    (prev : entry.prevValue ≠ some text) (new : entry.newValue ≠ some text) :
    entry.scrub id text = entry := by
  simp [HistoryRow.scrub, apart, prev, new]

variable {factId : String}

theorem filter_scrub (apart : id ≠ factId)
    (silent : ∀ entry ∈ history, entry.memoryId = id → entry.prevValue ≠ some text ∧
      entry.newValue ≠ some text)
    :
    ((history.map (HistoryRow.scrub factId text)).filter fun entry => entry.memoryId = id) =
      history.filter fun entry => entry.memoryId = id := by
  have kept : ∀ entry : HistoryRow, (entry.scrub factId text).memoryId = entry.memoryId := by
    intro entry
    rw [HistoryRow.scrub]
    split <;> rfl
  induction history with
  | nil => rfl
  | cons entry rest ih =>
    have rest' := ih fun entry' there => silent entry' (List.mem_cons_of_mem _ there)
    rw [List.map_cons, List.filter_cons, List.filter_cons, rest', kept]
    split
    · rename_i here
      have here : entry.memoryId = id := of_decide_eq_true here
      obtain ⟨prev, new⟩ := silent entry List.mem_cons_self here
      rw [scrub_apart (here ▸ apart) prev new]
    · rfl

theorem untouched_purge (scope : Scope) (factId : String) (reason : Option String)
    (now : Int)
    (silent : ∀ row, store.view factId = some row → row.userId = scope.userId →
      ¬ Echoes scope.userId store row.text) :
    Untouched scope.userId store (store.purge scope factId reason now) := by
  unfold Store.purge
  cases found : store.facts.get factId with
  | none => exact .refl ..
  | some row =>
    dsimp only
    by_cases mine : row.userId = scope.userId
    · rw [if_pos mine]
      have own : ¬ Foreign scope.userId store factId := by
        rintro ⟨row', there, foreign⟩
        rw [Store.view, found] at there
        cases there
        exact foreign mine
      have apart : ∀ id, Foreign scope.userId store id → id ≠ factId := by
        rintro id foreign rfl
        exact own foreign
      refine ⟨?_, ?_, ?_, ?_⟩
      · intro id row' foreign
        have shown : (store.facts.delete factId).get id =
            if id = factId then none else store.facts.get id := OrderedMap.get_delete ..
        change _ ↔ (store.facts.delete factId).get id = some row'
        rw [shown]
        by_cases here : id = factId
        · subst here
          simp only [if_pos]
          constructor
          · intro there
            exact absurd ⟨row', there, foreign⟩ own
          · intro there
            cases there
        · rw [if_neg here]
          rfl
      · intro id foreign
        exact (OrderedMap.get_delete ..).trans (if_neg (apart id foreign))
      · intro id foreign embedderId
        exact dropVectors_get store factId (embedderId, id) (apart id foreign)
      · intro id foreign
        rw [filter_apart own foreign]
        refine filter_scrub (apart id foreign) ?_
        rintro entry there rfl
        have quiet := silent row found mine
        exact ⟨fun prev => quiet ⟨entry, there, foreign, .inl prev⟩,
          fun new => quiet ⟨entry, there, foreign, .inr new⟩⟩
    · rw [if_neg mine]
      exact .refl ..

theorem noteQuery_untouched (scope : Scope) (queryHash : String) (now : Int) (id : String) :
    Untouched userId store (store.noteQuery scope queryHash now id) := by
  rw [Store.noteQuery]
  split
  · split
    · exact .refl ..
    · exact ⟨fun _ _ _ => Iff.rfl, fun _ _ => rfl, fun _ _ _ => rfl, fun _ _ => rfl⟩
  · exact .refl ..

theorem noteQueries_untouched (scope : Scope) (queryHash : String) (now : Int)
    (ids : List String) (store : Store) : Untouched userId store
      (ids.foldl (fun store id => store.noteQuery scope queryHash now id) store) := by
  induction ids generalizing store with
  | nil => exact .refl ..
  | cons id _ ih => exact (noteQuery_untouched scope queryHash now id).trans (ih _)

theorem untouched_markAccessed (scope : Scope) (ids : List String) (queryHash : String)
    (now : Int) :
    Untouched scope.userId store (store.markAccessed scope ids queryHash now) := by
  have stamps : Untouched scope.userId store
      { store with
        facts := ids.dedup.foldl
          (fun facts id => facts.modify id fun row => row.access scope.userId now)
          store.facts } := by
    refine ⟨fun id row foreign => ?_, fun _ _ => rfl, fun _ _ _ => rfl, fun _ _ => rfl⟩
    obtain ⟨change, noted, shown⟩ := stamped scope.userId now id ids.dedup store.facts
    change store.facts.get id = _ ↔ (ids.dedup.foldl _ store.facts).get id = _
    rw [shown]
    constructor
    · intro there
      rw [there]
      exact congrArg some ((noted row).foreign foreign)
    · intro there
      obtain ⟨old, found, rfl⟩ := Option.map_eq_some_iff.mp there
      have owner : (change old).userId = old.userId := by rw [(noted old).same]
      rw [(noted old).foreign (owner ▸ foreign)]
      exact found
  rw [Store.markAccessed]
  split
  · exact stamps
  · exact stamps.trans (noteQueries_untouched scope queryHash now ids _)

theorem untouched_search (env : SearchEnv) (scope : Scope) (query : String)
    (options : FactSearchOptions) :
    Untouched scope.userId store (search env scope query options store).2 := by
  rw [search]
  split
  · exact .refl ..
  · dsimp only
    split
    · exact .refl ..
    · exact untouched_markAccessed ..

theorem orchestrate_supersede
    (decided : orchestrate ctx = .supersede stage existingId reason) :
    ∃ hit ∈ ctx.existing, hit.id = existingId := by
  have named : ∀ {stage' : ConflictStage} {outcome : StageOutcome},
      mapOutcomeToDecision stage' outcome ctx.candidate =
        .supersede stage existingId reason →
      outcome = .supersede existingId reason := by
    intro stage' outcome made
    cases outcome with
    | supersede =>
      cases made
      rfl
    | «continue» | admitted | dedup | pending => cases made
  have first : stage1ExactDedup ctx ≠ .supersede existingId reason := by
    unfold stage1ExactDedup
    split <;> intro made <;> cases made
  have second : stage2EmbeddingThreeZone ctx ≠ .supersede existingId reason := by
    unfold stage2EmbeddingThreeZone
    split
    · intro made
      cases made
    · dsimp only
      split
      · intro made
        cases made
      · split
        · intro made
          cases made
        · split <;> intro made <;> cases made
  have third : stage3HeuristicRegex ctx = .supersede existingId reason →
      ∃ hit ∈ ctx.existing, hit.id = existingId := by
    unfold stage3HeuristicRegex
    split
    · intro made
      cases made
    · rename_i top rest existing
      have there : top ∈ ctx.existing := by rw [existing]; exact List.mem_cons_self
      split
      · intro made
        cases made
        exact ⟨top, there, rfl⟩
      · split
        · intro made
          cases made
          exact ⟨top, there, rfl⟩
        · intro made
          cases made
  have fourth : stage4SubjectPredicate ctx = .supersede existingId reason →
      ∃ hit ∈ ctx.existing, hit.id = existingId := by
    unfold stage4SubjectPredicate
    split
    · intro made
      cases made
    · dsimp only
      split
      · intro made
        cases made
      · rename_i hit existing found
        obtain ⟨given, there, made⟩ := List.exists_of_findSome?_eq_some found
        have same : given = hit := by
          split at made
          · split at made
            · cases made
              rfl
            · cases made
          · cases made
        split
        · intro made
          cases made
        · intro made
          cases made
          exact ⟨hit, same ▸ there, rfl⟩
  have fifth : stage5DeferToDeep ctx ≠ .supersede existingId reason := by
    unfold stage5DeferToDeep
    split <;> intro made <;> cases made
  unfold orchestrate at decided
  dsimp only at decided
  split at decided
  · exact absurd (named decided) first
  · split at decided
    · exact absurd (named decided) second
    · cases empty : ctx.existing.isEmpty with
      | true =>
        simp only [empty, if_true, ne_eq, not_true_eq_false, if_false] at decided
        split at decided
        · exact absurd (named decided) second
        · exact absurd (named decided) second
        · exact absurd (named decided) fifth
      | false =>
        simp only [empty, Bool.false_eq_true, if_false] at decided
        split at decided
        · exact third (named decided)
        · split at decided
          · exact fourth (named decided)
          · split at decided
            · exact absurd (named decided) second
            · exact absurd (named decided) second
            · exact absurd (named decided) fifth

def OwnHits (userId : String) (store : Store) (hits : List Hit) : Prop :=
  ∀ hit ∈ hits, ∃ row, store.view hit.id = some row ∧ row.userId = userId

theorem owner_of_admitted (admitted : row.admitted userId quarantined epoch = true) :
    row.userId = userId := by
  simp only [Row.admitted, Bool.and_eq_true, decide_eq_true_eq] at admitted
  exact admitted.1.1.1.1

variable {hits : List Hit}

theorem Passes.own (passes : Passes store scope options now hits)
    (resolved : resolveFactValidityEpoch options now = .ok epoch) :
    OwnHits scope.userId store hits := by
  intro hit listed
  obtain ⟨row, there, admitted, -⟩ := passes epoch resolved hit listed
  exact ⟨row, there, owner_of_admitted admitted⟩

theorem collectVectorCandidates_own
    (ok : collectVectorCandidates engine registry store embedder candidate topK now = .ok hits)
    : OwnHits candidate.userId store hits := by
  unfold collectVectorCandidates at ok
  split at ok
  · cases ok
    intro hit listed
    cases listed
  · split at ok
    · cases ok
    · cases ok
      intro hit listed
      cases listed
    · split at ok
      · rename_i found searched
        cases ok
        intro hit listed
        exact (searchVector_passes searched).own rfl hit (List.mem_of_mem_filter listed)
      · cases ok
        intro hit listed
        cases listed

theorem collectExactTextCandidates_own {engine : Engine} {candidate : Fact} {topK : Nat} :
    OwnHits candidate.userId store
      (collectExactTextCandidates engine store candidate topK now) := by
  unfold collectExactTextCandidates
  intro hit listed
  split at listed
  · cases listed
  · split at listed
    · rename_i found searched
      exact (search_passes searched).own rfl hit (List.mem_of_mem_filter listed)
    · cases listed

variable {env : Env} {options : FactRememberOptions}

theorem decide_own
    (decided : decide env store fact options = .ok (.supersede stage existingId reason)) :
    ¬ Foreign fact.userId store existingId := by
  unfold decide at decided
  split at decided
  · rename_i pipeline _
    split at decided
    · cases decided
    · unfold ConflictPipeline.run at decided
      split at decided
      · cases decided
      · split at decided
        · cases decided
        · rename_i close collected
          have own : OwnHits fact.userId store
              (if close.isEmpty then
                collectExactTextCandidates env.engine store fact pipeline.stage2TopK env.now
              else close) := by
            split
            · exact collectExactTextCandidates_own
            · exact collectVectorCandidates_own collected
          obtain ⟨hit, there, rfl⟩ := orchestrate_supersede (Except.ok.inj decided)
          obtain ⟨row, found, mine⟩ := own hit there
          rintro ⟨row', found', foreign⟩
          rw [found] at found'
          cases found'
          exact foreign mine
  · cases decided

variable {input : FactInput}

theorem bound_owner
    (bound : (newFact detectMemoryInjection env scope input options).toRow embedderId = .ok row)
    : row.userId = scope.userId :=
  (Fact.bound bound).userId

theorem not_foreign_of_fresh (userId : String) (fresh : store.view id = none) :
    ¬ Foreign userId store id := by
  rintro ⟨row, there, -⟩
  rw [fresh] at there
  cases there

theorem untouched_remember
    (ended : Remembered detectMemoryInjection env scope input options store outcome)
    (fresh : store.view env.newId = none) :
    Untouched scope.userId store outcome.2 := by
  have own := not_foreign_of_fresh scope.userId fresh
  cases ended with
  | failed => exact .refl ..
  | dedup => exact .refl ..
  | @admitted decision row write decided plain saved bound =>
    exact (untouched_insert write own (bound_owner bound)).trans (untouched_linkEntities ..)
  | @closed stage existingId reason row column write decided saved bound since =>
    have mine : row.userId = scope.userId := bound_owner bound
    have first := untouched_insert write own mine
    have second : Untouched scope.userId _
        ((store.insert env.newId row write).insert env.newId
          { row with embedderId := none } {}) :=
      untouched_insert {} (first.foreign.not.mp own) mine
    have both := first.trans second
    exact (both.trans (untouched_close (both.foreign.not.mp (decide_own decided)))).trans
      (untouched_linkEntities ..)

theorem untouched_supersede
    (ended : Superseded detectMemoryInjection env scope oldId input auto store outcome)
    (fresh : store.view env.newId = none)
    (mine : ∀ saved,
      commitFact env store (successor detectMemoryInjection env scope oldId input auto)
        (resolveIndexText env (successorInput oldId input) none) = .ok saved →
          (successor detectMemoryInjection env scope oldId input auto).status ≠
            some .quarantined → ¬ Foreign scope.userId store oldId) :
    Untouched scope.userId store outcome.2 := by
  have own := not_foreign_of_fresh scope.userId fresh
  cases ended with
  | failed => exact .refl ..
  | @deferred row write waits bound =>
    exact (untouched_insert write own (bound_owner bound)).trans (untouched_linkEntities ..)
  | @closed row write acts saved bound =>
    have owner : row.userId = scope.userId := bound_owner bound
    have first := (untouched_insert write own owner).trans
      (untouched_linkEntities env
        (successor detectMemoryInjection env scope oldId input auto))
    have again : ({ row with embedderId := none } : Row).userId = scope.userId := owner
    have second := first.trans (untouched_insert {} (first.foreign.not.mp own) again)
    exact second.trans (untouched_close (second.foreign.not.mp (mine _ saved acts)))

theorem untouched_validate
    (ended : Validated detectMemoryInjection scope factId reason force now store outcome)
    (mine : ∀ row oldId oldRow, store.view factId = some row → row.deletedAt = none →
      (force = true ∨ detectMemoryInjection row.text = false) → row.supersedes = some oldId →
        store.view oldId = some oldRow → Open oldRow → row.userId = scope.userId ∧ oldRow.userId =
          scope.userId) :
    Untouched scope.userId store outcome.2 := by
  cases ended with
  | unread => exact untouched_setStatus ..
  | refused => exact .refl ..
  | promoted => exact untouched_setStatus ..
  | @completed row oldRow oldId there live passes link old waiting =>
    obtain ⟨owner, owner'⟩ := mine row oldId oldRow there live passes link old waiting
    have first : Untouched scope.userId store
        (store.setStatus scope factId .active reason now) := untouched_setStatus ..
    have own : ¬ Foreign scope.userId store factId := by
      rintro ⟨row', there', foreign⟩
      rw [there] at there'
      cases there'
      exact foreign owner
    have own' : ¬ Foreign scope.userId store oldId := by
      rintro ⟨row', there', foreign⟩
      rw [old] at there'
      cases there'
      exact foreign owner'
    have again : ({ row.promoted with
        embedderId := none
        lastAccessedAt := none
        accessCount := 0
        archived := false
        deletedAt := none
        sourceMessageIds := none
        strength := 1 } : Row).userId = scope.userId := owner
    have second := first.trans (untouched_insert {} (first.foreign.not.mp own) again)
    exact second.trans (untouched_close (second.foreign.not.mp own'))

/-- A call that reaches a fact of another user: an active successor of it, the
completion of a supersede one side of which is foreign, the purge of a text that the
history of a foreign fact carries. -/
def Trespasses (detectMemoryInjection : String → Bool) (store : Store) : Op → Prop
  | .supersede env scope oldId input auto =>
    let fact := successor detectMemoryInjection env scope oldId input auto
    fact.status ≠ some .quarantined ∧ Foreign scope.userId store oldId ∧
      ∃ saved, commitFact env store fact
        (resolveIndexText env (successorInput oldId input) none) = .ok saved
  | .validate scope factId _ force _ =>
    ∃ row oldId oldRow, store.view factId = some row ∧ row.deletedAt = none ∧
      (force = true ∨ detectMemoryInjection row.text = false) ∧
      row.supersedes = some oldId ∧ store.view oldId = some oldRow ∧ Open oldRow ∧
      ¬ (row.userId = scope.userId ∧ oldRow.userId = scope.userId)
  | .purge scope factId _ _ =>
    ∃ row, store.view factId = some row ∧ row.userId = scope.userId ∧
      Echoes scope.userId store row.text
  | _ => False

/-- The operations of the tier a user calls. -/
def Op.tenant : Op → Bool
  | .promote .. => false
  | _ => true

theorem untouched_apply (tenant : op.tenant = true)
    (fresh : ∀ id, op.newId = some id → store.view id = none)
    (keepsOut : ¬ Trespasses detectMemoryInjection store op) :
    Untouched op.scope.userId store (op.apply detectMemoryInjection store) := by
  cases op with
  | remember env scope input options =>
    exact untouched_remember
      (rememberWithDecision_cases detectMemoryInjection env scope input options store)
      (fresh _ rfl)
  | supersede env scope oldId input auto =>
    refine untouched_supersede
      (supersede_cases detectMemoryInjection env scope oldId input auto store)
      (fresh _ rfl) fun saved committed acts foreign => ?_
    exact keepsOut ⟨acts, foreign, saved, committed⟩
  | validate scope factId reason force now =>
    refine untouched_validate
      (validate_cases detectMemoryInjection scope factId reason force now store) ?_
    intro row oldId oldRow there live passes link old waiting
    by_contra apart
    exact keepsOut ⟨row, oldId, oldRow, there, live, passes, link, old, waiting, apart⟩
  | forget => exact untouched_forget ..
  | purge scope factId reason now =>
    refine untouched_purge scope factId reason now fun row there mine echoes => ?_
    exact keepsOut ⟨row, there, mine, echoes⟩
  | search => exact untouched_search ..
  | promote => cases tenant

theorem historyFrom_own (scope : Scope) (fuel : Nat) (queue seen : List String)
    (rows : List (String × Row)) (own : ∀ entry ∈ rows, entry.2.userId = scope.userId) :
    ∀ entry ∈ store.historyFrom scope fuel queue seen rows,
      entry.2.userId = scope.userId := by
  induction fuel generalizing queue seen rows with
  | zero => exact own
  | succ fuel ih =>
    cases queue with
    | nil => exact own
    | cons id queue =>
      rw [Store.historyFrom]
      split
      · exact ih _ _ _ own
      · split
        · rename_i row found
          split
          · rename_i mine
            refine ih _ _ _ fun entry there => ?_
            rcases List.mem_append.mp there with there | there
            · exact own entry there
            · rw [List.mem_singleton.mp there]
              exact mine
          · exact ih _ _ _ own
        · exact ih _ _ _ own

theorem historyOf_own (listed : fact ∈ store.historyOf scope factId) :
    fact.userId = scope.userId := by
  obtain ⟨⟨id, row⟩, there, rfl⟩ := List.mem_map.mp listed
  exact historyFrom_own scope _ [factId] [] [] (by simp) _
    ((List.mergeSort_perm _ _).mem_iff.mp there)

variable {env : SearchEnv} {query : String} {options : FactSearchOptions}

theorem searchHits_resolved (ok : searchHits env store scope query options = .ok hits) :
    ∃ epoch, resolveFactValidityEpoch options.read env.now = .ok epoch := by
  cases resolved : resolveFactValidityEpoch options.read env.now with
  | ok epoch => exact ⟨epoch, rfl⟩
  | error failure =>
    have words : store.search env.engine scope query options.candidateTopK options.read
        env.now = .error failure := by
      rw [Store.search, resolved]
      rfl
    have direct (fusion : Fusion) : fanOut env store scope options fusion
        (query :: env.variants) = .error failure := by
      rw [fanOut, wordingLegs, words]
    rw [searchHits, gather] at ok
    dsimp only at ok
    rw [direct] at ok
    cases ok

theorem searchHits_own (ok : searchHits env store scope query options = .ok hits) :
    ∀ hit ∈ hits, hit.fact.userId = scope.userId := by
  intro hit listed
  obtain ⟨epoch, resolved⟩ := searchHits_resolved ok
  obtain ⟨row, there, admitted, fact⟩ := searchHits_passes ok epoch resolved hit listed
  rw [fact]
  exact owner_of_admitted admitted

/-- What a user reads of a store is the user's own, `get` on a foreign id apart. -/
structure ReadsOwn (userId : String) (store : Store) : Prop where
  history : ∀ scope factId, scope.userId = userId →
    ∀ fact ∈ store.historyOf scope factId, fact.userId = userId
  search : ∀ env scope query options hits, scope.userId = userId →
    searchHits env store scope query options = .ok hits →
    ∀ hit ∈ hits, hit.fact.userId = userId
  get : ∀ factId fact, store.get factId = some fact →
    (fact.userId = userId ↔ ¬ Foreign userId store factId)

theorem readsOwn (userId : String) (store : Store) : ReadsOwn userId store where
  history scope factId mine fact listed := mine ▸ historyOf_own listed
  search env scope query options hits mine ok hit listed :=
    mine ▸ searchHits_own ok hit listed
  get factId fact read := by
    obtain ⟨row, there, live, rfl⟩ := Store.get_eq_some.mp read
    constructor
    · rintro mine ⟨row', there', foreign⟩
      rw [Store.view, there] at there'
      cases there'
      exact foreign mine
    · intro own
      by_contra foreign
      exact own ⟨row, there, foreign⟩

/-- A run of one user's calls, none of which trespasses, leaves every foreign fact
as it was, and the reads in every state it reaches give that user's facts. -/
theorem users_are_isolated {userId : String} {store : Store} {ops : List Op}
    (drawn : Drawn store ops)
    (tenant : ∀ op ∈ ops, op.scope.userId = userId ∧ op.tenant = true)
    (keepOut : ∀ op reached, Called detectMemoryInjection store ops op reached →
      ¬ Trespasses detectMemoryInjection reached op) :
    ∀ before rest, ops = before ++ rest →
      Untouched userId store (run detectMemoryInjection store before) ∧
        ReadsOwn userId (run detectMemoryInjection store before) := by
  intro before rest split
  refine ⟨?_, readsOwn ..⟩
  induction before using List.reverseRecOn generalizing rest with
  | nil => exact .refl ..
  | append_singleton before op ih =>
    have split' : ops = before ++ op :: rest := by
      rw [split, List.append_assoc]
      rfl
    have called : Called detectMemoryInjection store ops op
        (run detectMemoryInjection store before) := ⟨before, rest, split', rfl⟩
    rw [run_append]
    obtain ⟨mine, kind⟩ := tenant op called.mem
    refine (ih (op :: rest) split').trans ?_
    rw [← mine]
    exact untouched_apply kind (called.fresh drawn) (keepOut op _ called)

def evesEnv : Env := { plainEnv "fact-2" 2000 with pipeline := none }

def evesCall : Op :=
  .supersede evesEnv ⟨"eve", none, none⟩ "fact-1" { text := "Nothing to see." } false

/-- The store after the fact of the first user was written. -/
def adasStore : Store := run silent .empty [parisCall]

theorem eves_drawn : Drawn adasStore [evesCall] where
  once := by decide
  absent id listed := by
    cases List.mem_singleton.mp listed
    decide

theorem foreign_fact_superseded : Drawn adasStore [evesCall] ∧
      (∀ op ∈ [evesCall], op.scope.userId = "eve" ∧ op.tenant = true) ∧
      ¬ Untouched "eve" adasStore (run silent adasStore [evesCall]) := by
  refine ⟨eves_drawn, by decide, fun untouched => ?_⟩
  have there : (adasStore.view "fact-1").map (·.supersededBy) = some none := by
    decide
  obtain ⟨row, found, open'⟩ := Option.map_eq_some_iff.mp there
  have owner : (adasStore.view "fact-1").map (·.userId) = some "ada" := by decide
  rw [found] at owner
  have foreign : row.userId ≠ "eve" := by
    rw [show row.userId = "ada" from Option.some.inj owner]
    decide
  have still := (untouched.rows "fact-1" row foreign).mp found
  have closed : ((run silent adasStore [evesCall]).view "fact-1").map (·.supersededBy) =
      some (some "fact-2") := by decide
  rw [still] at closed
  rw [show row.supersededBy = some "fact-2" from Option.some.inj closed] at open'
  cases open'

/-- A forget of the same fact by the other user, which does nothing. -/
def evesForget : Op := .forget ⟨"eve", none, none⟩ "fact-1" 2000

theorem eve_forgets_in_vain :
    Untouched "eve" adasStore (run silent adasStore [evesForget]) ∧
      ReadsOwn "eve" (run silent adasStore [evesForget]) := by
  refine users_are_isolated ⟨by decide, by rintro _ ⟨⟩⟩ (by decide) ?_
    [evesForget] [] rfl
  rintro op reached called trespass
  cases List.mem_singleton.mp called.mem
  exact trespass

end Graphorin.Memory
