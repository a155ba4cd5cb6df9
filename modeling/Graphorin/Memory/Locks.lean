import Graphorin.Memory.Rounds

namespace Graphorin.Memory

open Lib

/-! The lock of a scope: who is inside a phase, and who is kept waiting by whom. -/

def World.holder (world : World) (key : ScopeKey) : Option String :=
  (world.state.row key).activeLockHeldBy

def World.heldSince (world : World) (key : ScopeKey) : Option Int :=
  (world.state.row key).activeLockAcquiredAt

def SameLocks (world next : World) : Prop :=
  ∀ key, next.holder key = world.holder key ∧ next.heldSince key = world.heldSince key

variable {world next : World}

theorem sameLocks_upsert (written : next.state = world.state.upsertState key patch) :
    SameLocks world next := by
  intro other
  rw [World.holder, World.heldSince, written, row_upsertState]
  by_cases here : other = key
  · subst here
    rw [if_pos rfl]
    exact ⟨rfl, rfl⟩
  · rw [if_neg here]
    exact ⟨rfl, rfl⟩

theorem sameLocks_state (same : next.state = world.state) :
    SameLocks world next := by
  intro key
  rw [World.holder, World.heldSince, same]
  exact ⟨rfl, rfl⟩

def RunStep.leaks : RunStep → Bool
  | .recordRunStart false | .handlerThrows | .release false => true
  | _ => false

variable (config : Nat → ConsolidatorConfig)

inductive LockMove (world : World) (id : Nat) (run : Run) (step : RunStep)
    (next : World) : Prop
  | stay (stage : RunStage) (locks : SameLocks world next)
      (runs : next.runs = world.runs ∨ next.runs = world.runs.set id { run with stage })
      (evictions : next.evictions = world.evictions)
      (inside : stage.inside = run.stage.inside)
      (waits : ∀ start, stage = .waiting start → run.stage = .waiting start)
  | acquire (start : Int) (waits : run.stage = .waiting start)
      (granted : (world.row run.scope).grants run.runId world.clock
        (config run.owner).maxRunDurationMs = true)
      (locks : ∀ key,
        next.holder key =
          (if key = run.scope.stateKey then some run.runId else world.holder key) ∧
        next.heldSince key =
          (if key = run.scope.stateKey then some world.clock else world.heldSince key))
      (runs : next.runs =
        world.runs.set id { run with acquiredAt := some world.clock, stage := .locked })
      (evictions : next.evictions = world.evictions ++ evicted (world.row run.scope)
        run.runId world.clock (config run.owner).maxRunDurationMs)
  | release (status : PhaseStatus) (locks : ∀ key,
      next.holder key =
        (if key = run.scope.stateKey ∧ world.holder key = some run.runId then none
        else world.holder key) ∧
      (next.holder key ≠ none → next.heldSince key = world.heldSince key))
      (runs : next.runs = world.runs.set id { run with stage := .settled (some status) })
      (evictions : next.evictions = world.evictions)
  /-- The run ends with its lock kept. -/
  | leak (status : Option PhaseStatus) (leaks : step.leaks = true)
      (locks : SameLocks world next)
      (runs : next.runs = world.runs.set id { run with stage := .settled status })
      (evictions : next.evictions = world.evictions)

variable {config}

theorem poll_moves (world : World) (id : Nat) (run : Run) (step : RunStep) (start : Int)
    (waits : run.stage = .waiting start) :
    LockMove config world id run step (world.poll config id run start) := by
  rw [World.poll, acquireLock_granted]
  by_cases granted : (world.state.row run.scope.stateKey).grants run.runId world.clock
      (config run.owner).maxRunDurationMs = true
  · rw [if_pos granted]
    refine .acquire start waits granted ?_ rfl rfl
    intro key
    rw [World.holder, World.heldSince, row_acquireLock]
    by_cases here : key = run.scope.stateKey
    · rw [if_pos ⟨here, granted⟩, if_pos here, if_pos here]
      exact ⟨rfl, rfl⟩
    · rw [if_neg (fun both => here both.1), if_neg here, if_neg here]
      exact ⟨rfl, rfl⟩
  · rw [if_neg granted]
    split
    · exact .stay _ (sameLocks_state rfl) (.inr rfl) rfl (by rw [waits]; rfl) nofun
    · exact .stay run.stage (sameLocks_state rfl) (.inl rfl) rfl rfl fun _ same => same

theorem enqueue_keeps (world : World) (run : Run) (rowId : String) (jitter : Rat) :
    (world.enqueue config run rowId jitter).state = world.state ∧
      (world.enqueue config run rowId jitter).runs = world.runs ∧
      (world.enqueue config run rowId jitter).evictions = world.evictions := by
  rw [World.enqueue]
  split
  · exact ⟨rfl, rfl, rfl⟩
  · exact ⟨rfl, rfl, rfl⟩

theorem release_locks (world : World) (run : Run) (next : World)
    (released : next.state = world.state.releaseLock run.scope.stateKey run.runId)
    (key : ScopeKey) :
    next.holder key =
        (if key = run.scope.stateKey ∧ world.holder key = some run.runId then none
        else world.holder key) ∧
      (next.holder key ≠ none → next.heldSince key = world.heldSince key) := by
  rw [World.holder, World.heldSince, released, row_releaseLock]
  by_cases own : key = run.scope.stateKey ∧ world.holder key = some run.runId
  · obtain ⟨rfl, held⟩ := own
    rw [if_pos ⟨rfl, held⟩, if_pos ⟨rfl, held⟩]
    exact ⟨rfl, fun absent => absurd rfl absent⟩
  · have kept : ¬ (key = run.scope.stateKey ∧
        (world.state.row run.scope.stateKey).activeLockHeldBy = some run.runId) := by
      rintro ⟨rfl, held⟩
      exact own ⟨rfl, held⟩
    rw [if_neg kept, if_neg own]
    exact ⟨rfl, fun _ => rfl⟩

theorem runStep_moves (world : World) (id : Nat) (run : Run) (step : RunStep) :
    LockMove config world id run step (world.runStep config id run step) := by
  unfold World.runStep
  split
  · rename_i start waits
    exact poll_moves world id run _ start waits
  · rename_i waits
    exact .stay _ (sameLocks_state rfl) (.inr rfl) rfl (by rw [waits]; rfl) nofun
  · rename_i there
    exact .stay _ (sameLocks_state rfl) (.inr rfl) rfl (by rw [there]; rfl) nofun
  · exact .leak _ rfl (sameLocks_state rfl) rfl rfl
  · rename_i there
    refine .stay _ (sameLocks_state rfl) (.inr rfl) rfl ?_ ?_
    · rw [there]
      split
      · rfl
      · rfl
    · intro start waits
      split at waits
      · cases waits
      · cases waits
  · rename_i there
    exact .stay _ (sameLocks_state rfl) (.inr rfl) rfl (by rw [there]; rfl) nofun
  · rename_i there
    split
    · exact .stay _ (sameLocks_state rfl) (.inr rfl) rfl (by rw [there]; rfl) nofun
    · exact .stay _ (sameLocks_state rfl) (.inr rfl) rfl (by rw [there]; rfl) nofun
  · rename_i there
    exact .stay _ (sameLocks_state rfl) (.inr rfl) rfl (by rw [there]; rfl) nofun
  · rename_i there
    exact .stay _ (sameLocks_state rfl) (.inr rfl) rfl (by rw [there]; rfl) nofun
  · rename_i there
    split
    · split
      · exact .stay _ (sameLocks_state rfl) (.inr rfl) rfl (by rw [there]; rfl) nofun
      · exact .stay _ (sameLocks_state rfl) (.inr rfl) rfl (by rw [there]; rfl) nofun
    · exact .stay _ (sameLocks_state rfl) (.inr rfl) rfl (by rw [there]; rfl) nofun
  · rename_i there
    exact .stay _ (sameLocks_upsert rfl) (.inr rfl) rfl (by rw [there]; rfl) nofun
  · rename_i there
    exact .stay _ (sameLocks_state rfl) (.inr rfl) rfl (by rw [there]; rfl) nofun
  · rename_i rowId jitter there
    obtain ⟨state, runs, evictions⟩ :=
      enqueue_keeps world run rowId jitter
    refine .stay (.accounting .failed) (sameLocks_state state) (.inr ?_) evictions
      (by rw [there]; rfl) nofun
    rw [World.setStage, World.setRun, World.forget, runs]
  · rename_i there
    exact .stay _ (sameLocks_state rfl) (.inr rfl) rfl (by rw [there]; rfl) nofun
  · exact .leak _ rfl (sameLocks_state rfl) rfl rfl
  · rename_i there
    exact .stay _ (sameLocks_upsert rfl) (.inr rfl) rfl (by rw [there]; rfl) nofun
  · rename_i there
    exact .stay _ (sameLocks_state rfl) (.inr rfl) rfl (by rw [there]; rfl) nofun
  · exact .release _ (release_locks world run _ rfl) rfl rfl
  · exact .leak _ rfl (sameLocks_state rfl) rfl rfl
  · exact .stay run.stage (sameLocks_state rfl) (.inl rfl) rfl rfl fun _ same => same

/-- No lock changes hands, and at most one run that has no lock comes in. -/
structure Apart (world : World) (runId : Option String) (next : World) : Prop where
  locks : SameLocks world next
  evictions : next.evictions = world.evictions
  runs : next.runs = world.runs ∨
    ∃ id run, world.runs.get id = none ∧ next.runs = world.runs.set id run ∧
      runId = some run.runId ∧ run.acquiredAt = none ∧ run.stage.inside = false

theorem call_apart (world : World) (id : Nat) (run : Run) (allowed : Bool)
    (free : run.acquiredAt = none) :
    Apart world (some run.runId) (world.call id run allowed) := by
  rw [World.call]
  split
  · exact ⟨sameLocks_state rfl, rfl, .inl rfl⟩
  · rename_i absent
    have unused : world.runs.get id = none := by
      cases found : world.runs.get id with
      | none => rfl
      | some => simp [found] at absent
    refine ⟨sameLocks_state rfl, rfl, .inr ⟨id, _, unused, rfl, rfl, free, ?_⟩⟩
    dsimp only
    split
    · rfl
    · rfl

/-- The id a drain step gives to a run. -/
def DrainStep.runId : DrainStep → Option String
  | .replay _ runId _ => some runId
  | _ => none

theorem drainStep_apart (world : World) (id : Nat) (drain : Drain) (step : DrainStep) :
    Apart world step.runId (world.drainStep config id drain step) := by
  have still : ∀ next : World, SameLocks world next → next.evictions = world.evictions →
      next.runs = world.runs → Apart world step.runId next :=
    fun next locks evictions runs => ⟨locks, evictions, .inl runs⟩
  unfold World.drainStep
  split
  · exact still _ (sameLocks_state rfl) rfl rfl
  · rename_i row rest _
    split
    · rename_i runId' runId allowed _
      split
      · exact still _ (sameLocks_state rfl) rfl rfl
      · have called := call_apart world runId'
          { owner := drain.owner, scope := drain.scope, phase := row.replayPhase,
            replay := true, runId := runId, stage := .waiting world.clock } allowed rfl
        exact ⟨called.locks, called.evictions, called.runs⟩
    · split
      · unfold World.settleRow
        split
        · exact still _ (sameLocks_state rfl) rfl rfl
        · exact still _ (sameLocks_state rfl) rfl rfl
        · exact still _ (sameLocks_state rfl) rfl rfl
        · dsimp only
          split
          · exact still _ (sameLocks_state rfl) rfl rfl
          · exact still _ (sameLocks_state rfl) rfl rfl
        · dsimp only
          split
          · exact still _ (sameLocks_state rfl) rfl rfl
          · exact still _ (sameLocks_state rfl) rfl rfl
      · exact still _ (sameLocks_state rfl) rfl rfl
    · exact still _ (sameLocks_state rfl) rfl rfl
    · split
      · exact still _ (sameLocks_state rfl) rfl rfl
      · exact still _ (sameLocks_state rfl) rfl rfl
      · exact still _ (sameLocks_state rfl) rfl rfl
    · exact still _ (sameLocks_upsert rfl) rfl rfl
    · exact still _ (sameLocks_state rfl) rfl rfl
    · exact still _ (sameLocks_state rfl) rfl rfl

def Overstayed (world : World) (run : Run) : Prop :=
  ∃ eviction ∈ world.evictions, eviction.runId = run.runId ∧
    ∃ since, run.acquiredAt = some since ∧ eviction.since = some since ∧
      0 < eviction.maxAgeMs ∧ eviction.maxAgeMs < eviction.now - since

structure LocksKept (world : World) : Prop where
  distinct : ∀ {id other run run'}, world.runs.get id = some run →
    world.runs.get other = some run' → run.runId = run'.runId → id = other
  waiting : ∀ {id run start}, world.runs.get id = some run →
    run.stage = .waiting start → run.acquiredAt = none
  held : ∀ {id run}, world.runs.get id = some run → run.stage.inside = true →
    (world.holder run.scope.stateKey = some run.runId ∧
      ∃ since, run.acquiredAt = some since ∧
        world.heldSince run.scope.stateKey = some since) ∨ Overstayed world run
  owned : ∀ {key runId}, world.holder key = some runId →
    ∃ id run, world.runs.get id = some run ∧ run.runId = runId ∧
      run.scope.stateKey = key ∧ run.acquiredAt.isSome ∧
        world.heldSince key = run.acquiredAt ∧ run.stage.inside = true

def Releases (world : World) : RoundEvent → Prop
  | .call _ run _ => ∀ entry ∈ world.runs.entries, entry.2.runId ≠ run.runId
  | .drain _ step => ∀ entry ∈ world.runs.entries, step.runId ≠ some entry.2.runId
  | .run _ step => step.leaks = false
  | _ => True

theorem Apart.keeps (apart : Apart world runId next) (kept : LocksKept world)
    (fresh : ∀ entry ∈ world.runs.entries, runId ≠ some entry.2.runId) :
    LocksKept next := by
  have known : ∀ {id run}, next.runs.get id = some run →
      world.runs.get id = some run ∨
        runId = some run.runId ∧ run.acquiredAt = none ∧ run.stage.inside = false ∧
          world.runs.get id = none ∧ ∀ other run', next.runs.get other = some run' →
            other = id ∨ world.runs.get other = some run' := by
    intro id run found
    rcases apart.runs with same | ⟨added, run', unused, same, named, free, outside⟩
    · exact .inl (same ▸ found)
    · rw [same, OrderedMap.get_set] at found
      split at found
      · rename_i here
        cases found
        subst here
        refine .inr ⟨named, free, outside, unused, ?_⟩
        intro other run'' found'
        rw [same, OrderedMap.get_set] at found'
        split at found'
        · exact .inl ‹_›
        · exact .inr found'
      · exact .inl found
  have new : ∀ {id run}, world.runs.get id = some run → runId ≠ some run.runId :=
    fun found => fresh _ (OrderedMap.get_eq_some.mp found)
  have kept' : ∀ {id run}, world.runs.get id = some run → next.runs.get id = some run := by
    intro id run found
    rcases apart.runs with same | ⟨added, run', unused, same, -⟩
    · rw [same]; exact found
    · rw [same, OrderedMap.get_set, if_neg (by rintro rfl; rw [unused] at found; cases found)]
      exact found
  constructor
  · intro id other run run' found found' same
    rcases known found with old | ⟨named, -, -, -, others⟩
    · rcases known found' with old' | ⟨named', -⟩
      · exact kept.distinct old old' same
      · exact absurd (named'.trans (congrArg some same.symm)) (new old)
    · rcases others other run' found' with rfl | old'
      · rfl
      · exact absurd (named.trans (congrArg some same)) (new old')
  · intro id run start found waits
    rcases known found with old | ⟨-, free, -⟩
    · exact kept.waiting old waits
    · exact free
  · intro id run found inside
    rcases known found with old | ⟨-, -, outside, -⟩
    · rw [(apart.locks _).1, (apart.locks _).2, Overstayed, apart.evictions]
      exact kept.held old inside
    · rw [outside] at inside
      cases inside
  · intro key holder held
    rw [(apart.locks key).1] at held
    obtain ⟨id, run, found, rest⟩ := kept.owned held
    exact ⟨id, run, kept' found, by rw [(apart.locks key).2]; exact rest⟩

variable {run run' : Run}

theorem Overstayed.mono (stayed : Overstayed world run)
    (more : ∃ added, next.evictions = world.evictions ++ added)
    (named : run'.runId = run.runId) (since : run'.acquiredAt = run.acquiredAt) :
    Overstayed next run' := by
  obtain ⟨eviction, there, rest⟩ := stayed
  obtain ⟨added, appended⟩ := more
  refine ⟨eviction, ?_, by rw [named, since]; exact rest⟩
  rw [appended]
  exact List.mem_append_left _ there

theorem granted_over {evictions : List Eviction}
    (granted : (world.row run.scope).grants run.runId now maxAgeMs = true)
    (other : run'.runId ≠ run.runId)
    (held : world.holder run.scope.stateKey = some run'.runId)
    (acquired : run'.acquiredAt = some since)
    (heldSince : world.heldSince run.scope.stateKey = some since) : Overstayed
      { world with
        evictions :=
          evictions ++ evicted (world.row run.scope) run.runId now maxAgeMs } run' := by
  rw [World.holder] at held
  rw [World.heldSince] at heldSince
  rw [World.row, StateRow.grants] at granted
  simp only [held, heldSince, other, decide_false, Bool.false_or, Bool.and_eq_true,
    decide_eq_true_eq] at granted
  refine ⟨⟨run'.runId, some since, now, maxAgeMs⟩, ?_, rfl, since, acquired, rfl, granted.1,
    by have := granted.2; dsimp only; omega⟩
  apply List.mem_append_right
  rw [evicted, World.row, held]
  dsimp only
  rw [if_neg other, heldSince]
  exact List.mem_singleton_self _

variable {id : Nat}

theorem distinct_set (kept : LocksKept world) (found : world.runs.get id = some run)
    (put : runs = world.runs.set id run') (named : run'.runId = run.runId)
    (foundOne : runs.get first = some one) (foundTwo : runs.get second = some two)
    (same : one.runId = two.runId) : first = second := by
  have before : ∀ {other : Nat} {after : Run}, runs.get other = some after →
      ∃ prior, world.runs.get other = some prior ∧ prior.runId = after.runId := by
    intro other after foundAfter
    rw [put, OrderedMap.get_set] at foundAfter
    split at foundAfter
    · rename_i here
      cases foundAfter
      exact ⟨run, here ▸ found, named.symm⟩
    · exact ⟨after, foundAfter, rfl⟩
  obtain ⟨prior, foundPrior, names⟩ := before foundOne
  obtain ⟨prior', foundPrior', names'⟩ := before foundTwo
  exact kept.distinct foundPrior foundPrior' (names.trans (same.trans names'.symm))

theorem waiting_set (kept : LocksKept world) (put : runs = world.runs.set id run')
    (waits : ∀ start, run'.stage = .waiting start → run'.acquiredAt = none)
    (found' : runs.get other = some after) (waiting : after.stage = .waiting start) :
    after.acquiredAt = none := by
  rw [put, OrderedMap.get_set] at found'
  split at found'
  · cases found'
    exact waits start waiting
  · exact kept.waiting found' waiting

theorem LocksKept.restage (kept : LocksKept world) (found : world.runs.get id = some run)
    (locks : SameLocks world next) (runs : next.runs = world.runs.set id { run with stage })
    (evictions : next.evictions = world.evictions)
    (inside : stage.inside = run.stage.inside)
    (waits : ∀ start, stage = .waiting start → run.stage = .waiting start) :
    LocksKept next := by
  have waited : ∀ start, stage = .waiting start → run.acquiredAt = none :=
    fun start waiting => kept.waiting found (waits start waiting)
  refine ⟨distinct_set kept found runs rfl, waiting_set kept runs waited, ?_, ?_⟩
  · intro other run' found' inside'
    rw [(locks _).1, (locks _).2]
    have more : ∃ added, next.evictions = world.evictions ++ added :=
      ⟨[], by rw [evictions, List.append_nil]⟩
    rw [runs, OrderedMap.get_set] at found'
    split at found'
    · cases found'
      exact (kept.held found (inside ▸ inside')).imp_right fun stayed =>
        stayed.mono more rfl rfl
    · exact (kept.held found' inside').imp_right fun stayed => stayed.mono more rfl rfl
  · intro key runId held
    rw [(locks key).1] at held
    obtain ⟨other, run', found', named, here, acquired, since, inside'⟩ := kept.owned held
    by_cases own : other = id
    · subst own
      rw [found] at found'
      cases found'
      refine ⟨other, { run with stage }, ?_, named, here, acquired, ?_, ?_⟩
      · rw [runs, OrderedMap.get_set, if_pos rfl]
      · rw [(locks key).2]
        exact since
      · exact inside.trans inside'
    · refine ⟨other, run', ?_, named, here, acquired, ?_, inside'⟩
      · rw [runs, OrderedMap.get_set, if_neg own]
        exact found'
      · rw [(locks key).2]
        exact since

theorem LocksKept.acquire {world next : World} {id : Nat} {run : Run} {maxAgeMs : Nat}
    (kept : LocksKept world) (found : world.runs.get id = some run)
    (granted : (world.row run.scope).grants run.runId world.clock maxAgeMs = true)
    (locks : ∀ key,
      next.holder key =
        (if key = run.scope.stateKey then some run.runId else world.holder key) ∧
      next.heldSince key =
        (if key = run.scope.stateKey then some world.clock else world.heldSince key))
    (runs : next.runs =
      world.runs.set id { run with acquiredAt := some world.clock, stage := .locked })
    (evictions : next.evictions =
      world.evictions ++ evicted (world.row run.scope) run.runId world.clock maxAgeMs) :
    LocksKept next := by
  refine ⟨distinct_set kept found runs rfl, waiting_set kept runs (by rintro _ ⟨⟩), ?_, ?_⟩
  · intro other run' found' inside
    rw [(locks _).1, (locks _).2]
    rw [runs, OrderedMap.get_set] at found'
    split at found'
    · cases found'
      rw [if_pos rfl, if_pos rfl]
      exact .inl ⟨rfl, _, rfl, rfl⟩
    · rename_i apart
      rcases kept.held found' inside with ⟨held, since, acquired, heldSince⟩ | stayed
      · by_cases here : run'.scope.stateKey = run.scope.stateKey
        · rw [here] at held heldSince
          have named : run'.runId ≠ run.runId := fun same =>
            apart (kept.distinct found' found same)
          obtain ⟨eviction, there, rest⟩ := granted_over granted named held acquired heldSince
          exact .inr ⟨eviction, by rw [evictions]; exact there, rest⟩
        · rw [if_neg here, if_neg here]
          exact .inl ⟨held, since, acquired, heldSince⟩
      · exact .inr (stayed.mono ⟨_, evictions⟩ rfl rfl)
  · intro key runId held
    rw [(locks key).1] at held
    rw [(locks key).2]
    split at held
    · rename_i here
      cases held
      rw [if_pos here]
      refine ⟨id, { run with acquiredAt := some world.clock, stage := .locked }, ?_, rfl,
        here.symm, rfl, rfl, rfl⟩
      rw [runs, OrderedMap.get_set, if_pos rfl]
    · rename_i elsewhere
      rw [if_neg elsewhere]
      obtain ⟨other, run', found', named, here, rest⟩ := kept.owned held
      refine ⟨other, run', ?_, named, here, rest⟩
      have apart : other ≠ id := by
        rintro rfl
        rw [found] at found'
        cases found'
        exact elsewhere here.symm
      rw [runs, OrderedMap.get_set, if_neg apart]
      exact found'

theorem LocksKept.release (kept : LocksKept world) (found : world.runs.get id = some run)
    (locks : ∀ key, next.holder key =
      (if key = run.scope.stateKey ∧ world.holder key =
        some run.runId then none else world.holder key) ∧
          (next.holder key ≠ none → next.heldSince key = world.heldSince key))
    (runs : next.runs = world.runs.set id { run with stage := .settled status })
    (evictions : next.evictions = world.evictions) : LocksKept next := by
  refine ⟨distinct_set kept found runs rfl, waiting_set kept runs (by rintro _ ⟨⟩), ?_, ?_⟩
  · intro other run' found' inside
    rw [runs, OrderedMap.get_set] at found'
    split at found'
    · cases found'
      cases inside
    · rename_i apart
      rcases kept.held found' inside with ⟨held, since, acquired, heldSince⟩ | stayed
      · have still : next.holder run'.scope.stateKey = some run'.runId := by
          rw [(locks _).1, held, if_neg]
          rintro ⟨-, same⟩
          exact apart (kept.distinct found' found (Option.some.inj same))
        refine .inl ⟨still, since, acquired, ?_⟩
        rw [(locks _).2 (by rw [still]; exact Option.some_ne_none _)]
        exact heldSince
      · exact .inr (stayed.mono ⟨[], by rw [evictions, List.append_nil]⟩ rfl rfl)
  · intro key runId held
    have present : next.holder key ≠ none := by rw [held]; exact Option.some_ne_none _
    rw [(locks key).1] at held
    rw [(locks key).2 present]
    split at held
    · cases held
    · rename_i own
      obtain ⟨other, run', found', named, here, rest⟩ := kept.owned held
      refine ⟨other, run', ?_, named, here, rest⟩
      have apart : other ≠ id := by
        rintro rfl
        rw [found] at found'
        cases found'
        exact own ⟨here.symm, held.trans (congrArg some named.symm)⟩
      rw [runs, OrderedMap.get_set, if_neg apart]
      exact found'

theorem LockMove.keeps (move : LockMove config world id run step next)
    (found : world.runs.get id = some run) (kept : LocksKept world)
    (closes : step.leaks = false) : LocksKept next := by
  cases move with
  | stay stage locks runs evictions inside waits =>
    rcases runs with runs | runs
    · have still : Apart world none next := ⟨locks, evictions, .inl runs⟩
      exact still.keeps kept fun _ _ absent => by cases absent
    · exact kept.restage found locks runs evictions inside waits
  | acquire start waits granted locks runs evictions =>
    exact kept.acquire found granted locks runs evictions
  | release _ locks runs evictions =>
    exact kept.release found locks runs evictions
  | leak _ leaks =>
    rw [closes] at leaks
    cases leaks

theorem locksKept_step (kept : LocksKept world) (releases : Releases world event) :
    LocksKept (world.step config event) := by
  have still : ∀ next : World, next.state = world.state → next.evictions = world.evictions →
      next.runs = world.runs → LocksKept next := by
    intro next state evictions runs
    have apart : Apart world none next := ⟨sameLocks_state state, evictions, .inl runs⟩
    exact apart.keeps kept fun _ _ absent => by cases absent
  cases event with
  | tick => exact still _ rfl rfl rfl
  | push => exact still _ rfl rfl rfl
  | call id run allowed =>
    refine (call_apart world id { run with acquiredAt := none, replay := false } allowed
      rfl).keeps kept ?_
    intro entry there same
    exact releases entry there (Option.some.inj same).symm
  | run id step =>
    rw [World.step]
    split
    · exact kept
    · rename_i run found
      split
      · exact kept
      · exact (runStep_moves world id run step).keeps found kept releases
  | claim =>
    rw [World.step]
    split
    · exact kept
    · exact still _ rfl rfl rfl
  | drain id step =>
    rw [World.step]
    split
    · exact kept
    · rename_i drain _
      split
      · exact kept
      · exact (drainStep_apart world id drain step).keeps kept releases
  | crash => exact still _ rfl rfl rfl

variable (config) in
/-- Every event of the run meets the promises in the world it comes upon. -/
def ReleasesAll (world : World) : List RoundEvent → Prop
  | [] => True
  | event :: rest =>
    Releases world event ∧ ReleasesAll (world.step config event) rest

theorem locksKept_after (events : List RoundEvent) :
    ∀ world : World, LocksKept world → ReleasesAll config world events →
      LocksKept (world.after config events) := by
  induction events with
  | nil =>
    intro world kept _
    exact kept
  | cons event rest ih =>
    intro world kept releases
    exact ih _ (locksKept_step kept releases.1) releases.2

theorem locksKept_initial : LocksKept {} where
  distinct := fun found => by cases found
  waiting := fun found => by cases found
  held := fun found => by cases found
  owned := fun held => by cases held

def Scope.Named (scope : Scope) : Prop :=
  scope.sessionId ≠ some "" ∧ scope.agentId ≠ some ""

theorem getD_injective (named : first ≠ some "") (named' : second ≠ some "")
    (same : first.getD "" = second.getD "") : first = second := by
  cases first with
  | none =>
    cases second with
    | none => rfl
    | some => exact absurd (congrArg some same.symm) named'
  | some =>
    cases second with
    | none => exact absurd (congrArg some same) named
    | some => exact congrArg some same

theorem stateKey_injective {scope scope' : Scope} (named : scope.Named)
    (named' : scope'.Named) (same : scope.stateKey = scope'.stateKey) : scope = scope' := by
  obtain ⟨userId, sessionId, agentId⟩ := scope
  obtain ⟨userId', sessionId', agentId'⟩ := scope'
  injection same with users sessions agents
  have sessions' := getD_injective named.1 named'.1 sessions
  have agents' := getD_injective named.2 named'.2 agents
  dsimp only at sessions' agents' users
  rw [users, sessions', agents']

variable (config) in
/-- What the lock is for. -/
structure LocksSound (world : World) : Prop where
  /-- Two runs of a scope inside their phase: the lock of one was taken over. -/
  exclusive : ∀ {id other run run'}, world.runs.get id = some run →
    world.runs.get other = some run' → id ≠ other →
      run.scope.stateKey = run'.scope.stateKey →
        run.stage.inside = true → run'.stage.inside = true →
          Overstayed world run ∨ Overstayed world run'
  /-- A run that is refused waits for one of its own scope. -/
  ownScope : ∀ {id run start}, world.runs.get id = some run →
    run.stage = .waiting start →
      (world.state.acquireLock run.scope.stateKey run.runId world.clock
        (config run.owner).maxRunDurationMs).1 = false →
      ∃ other run', world.runs.get other = some run' ∧ run'.stage.inside = true ∧
        run'.scope.stateKey = run.scope.stateKey ∧
          (run'.scope.Named → run.scope.Named → run'.scope = run.scope)
  /-- No other run's release frees a lock. -/
  ownRelease : ∀ {id other run run' ok}, world.runs.get id = some run →
    world.runs.get other = some run' → id ≠ other →
      world.holder run'.scope.stateKey = some run'.runId →
        (world.step config (.run id (.release ok))).holder run'.scope.stateKey =
          some run'.runId
  /-- A run that came to an end holds no lock. -/
  released : ∀ {id run status}, world.runs.get id = some run →
    run.stage = .settled status → world.holder run.scope.stateKey ≠ some run.runId

theorem LocksKept.exclusive (kept : LocksKept world) (found : world.runs.get id = some run)
    (found' : world.runs.get other = some run') (apart : id ≠ other)
    (sameScope : run.scope.stateKey = run'.scope.stateKey)
    (inside : run.stage.inside = true) (inside' : run'.stage.inside = true) :
    Overstayed world run ∨ Overstayed world run' := by
  rcases kept.held found inside with ⟨held, -⟩ | stayed
  · rcases kept.held found' inside' with ⟨held', -⟩ | stayed
    · rw [← sameScope, held] at held'
      exact absurd (kept.distinct found found' (Option.some.inj held')) apart
    · exact .inr stayed
  · exact .inl stayed

theorem LocksKept.ownScope (kept : LocksKept world) {now : Int} {maxAgeMs : Nat}
    (refused : (world.state.acquireLock run.scope.stateKey run.runId now maxAgeMs).1 = false) :
    ∃ other run', world.runs.get other = some run' ∧ run'.stage.inside = true ∧
      run'.scope.stateKey = run.scope.stateKey ∧
        (run'.scope.Named → run.scope.Named → run'.scope = run.scope) := by
  rw [acquireLock_granted, StateRow.grants] at refused
  cases held : (world.state.row run.scope.stateKey).activeLockHeldBy with
  | none =>
    rw [held] at refused
    cases refused
  | some =>
    obtain ⟨other, run', found, -, here, -, -, inside⟩ := kept.owned held
    exact ⟨other, run', found, inside, here, fun named named' =>
      stateKey_injective named named' here⟩

theorem LocksKept.ownRelease (kept : LocksKept world) {ok : Bool}
    (found : world.runs.get id = some run) (found' : world.runs.get other = some run')
    (apart : id ≠ other) (held : world.holder run'.scope.stateKey = some run'.runId) :
    (world.step config (.run id (.release ok))).holder run'.scope.stateKey =
      some run'.runId := by
  rw [World.step, found]
  dsimp only
  split
  · exact held
  · cases (runStep_moves world id run (.release ok) :
        LockMove config world id run _ _) with
    | stay _ locks => rw [(locks _).1, held]
    | leak status leaks locks => rw [(locks _).1, held]
    | release _ locks =>
      rw [(locks _).1, held, if_neg]
      rintro ⟨-, same⟩
      exact apart (kept.distinct found found' (Option.some.inj same).symm)
    | acquire start waits granted locks runs =>
      unfold World.runStep at runs
      rw [waits] at runs
      have put := congrArg (·.get id) runs
      rw [found, OrderedMap.get_set, if_pos rfl] at put
      have stage := congrArg Run.stage (Option.some.inj put)
      rw [waits] at stage
      cases stage

theorem LocksKept.released (kept : LocksKept world) (found : world.runs.get id = some run)
    (settled : run.stage = .settled status) :
    world.holder run.scope.stateKey ≠ some run.runId := by
  intro held
  obtain ⟨other, run', found', named, -, -, -, inside⟩ := kept.owned held
  have same := kept.distinct found' found named
  subst same
  rw [found] at found'
  cases found'
  rw [settled] at inside
  cases inside

/-- Where no run ends on a statement that leaves its lock behind, the lock excludes,
each scope by itself, and is given back. -/
theorem lock_excludes_and_is_released (config : Nat → ConsolidatorConfig)
    (events : List RoundEvent) (releases : ReleasesAll config {} events) :
    LocksSound config (World.after config {} events) :=
  have kept := locksKept_after events {} locksKept_initial releases
  { exclusive := kept.exclusive
    ownScope := fun _ _ refused => kept.ownScope refused
    ownRelease := kept.ownRelease
    released := kept.released }

def anaRun (runId : String) : Run where
  owner := 0
  scope := { userId := "ana" }
  phase := .light
  replay := false
  runId := runId
  stage := .waiting 0

def takeover : List RoundEvent :=
  [.call 0 (anaRun "r0") true, .run 0 (.poll true), .run 0 (.recordRunStart true),
    .tick 400000, .call 1 (anaRun "r1") true, .run 1 (.poll true)]

theorem stale_lock_is_taken_over : ReleasesAll (fun _ => {}) {} takeover ∧
    LocksSound (fun _ => {}) (World.after (fun _ => {}) {} takeover) := by
  have fresh : ∀ entry ∈ (World.after (fun _ => {}) {} (takeover.take 4)).runs.entries,
      entry.2.runId ≠ "r1" := by
    decide
  have releases : ReleasesAll (fun _ => {}) {} takeover := by
    refine ⟨?_, rfl, rfl, trivial, fresh, rfl, trivial⟩
    intro entry absent
    cases absent
  exact ⟨releases, lock_excludes_and_is_released _ takeover releases⟩

/-- The log row of the run cannot be written: the run ends by an error, its lock stays. -/
theorem failed_start_keeps_the_lock :
    let world := World.after (fun _ => {}) {}
      [.call 0 (anaRun "r0") true, .run 0 (.poll true), .run 0 (.recordRunStart false)]
    (∃ run, world.runs.get 0 = some run ∧ run.stage = .settled none ∧
      world.holder run.scope.stateKey = some run.runId) ∧
    ¬ LocksSound (fun _ => {}) world := by
  intro world
  have kept : world.runs.get 0 =
      some { anaRun "r0" with acquiredAt := some 0, stage := .settled none } := rfl
  have held : world.holder (anaRun "r0").scope.stateKey = some "r0" := by decide
  exact ⟨⟨_, kept, rfl, held⟩, fun sound => sound.released kept rfl held⟩

end Graphorin.Memory
