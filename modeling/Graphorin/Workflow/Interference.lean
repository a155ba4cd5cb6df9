import Graphorin.Workflow.Reach
import Graphorin.Workflow.Shared

namespace Graphorin.Workflow

open Graphorin.Lib
open Graphorin.Js

/-! The engine amid other writers of its thread.  The others only ever put
checkpoints of their own behind the last one; the same is shown of the engine
itself. -/

/-- From `store` to `later` the thread has only grown, by checkpoints whose ids
`mine` admits. -/
structure Grown (threadId space : String) (mine : Nat → Prop)
    (store later : CheckpointStore) : Prop where
  heads : ∃ added, later.heads threadId space =
    store.heads threadId space ++ added
  chained : Chained (store.heads threadId space) →
    Chained (later.heads threadId space)
  drawn : ∀ tuple ∈ later, (∃ old ∈ store,
    old.checkpoint = tuple.checkpoint) ∨ mine tuple.checkpoint.id.run

section Grown

variable {threadId space : String} {mine : Nat → Prop}
variable {store later latest : CheckpointStore}

theorem Grown.refl (store : CheckpointStore) :
    Grown threadId space mine store store :=
  ⟨⟨[], by simp⟩, id, fun tuple member => .inl ⟨tuple, member, rfl⟩⟩

theorem Grown.trans (first : Grown threadId space mine store later)
    (second : Grown threadId space mine later latest) :
    Grown threadId space mine store latest := by
  obtain ⟨added, firstHeads⟩ := first.heads
  obtain ⟨more, secondHeads⟩ := second.heads
  refine ⟨⟨added ++ more, ?_⟩, second.chained ∘ first.chained, ?_⟩
  · rw [secondHeads, firstHeads, List.append_assoc]
  · intro tuple member
    rcases second.drawn tuple member with ⟨middle, stored, same⟩ | drawn
    · rcases first.drawn middle stored with ⟨old, kept, also⟩ | drawn
      · exact .inl ⟨old, kept, also.trans same⟩
      · exact .inr (same ▸ drawn)
    · exact .inr drawn

theorem Grown.mono (grown : Grown threadId space mine store later)
    (implies : ∀ run, mine run → others run) :
    Grown threadId space others store later := by
  refine ⟨grown.heads, grown.chained, ?_⟩
  intro tuple member
  exact (grown.drawn tuple member).imp_right (implies _)

theorem Grown.mem_heads (grown : Grown threadId space mine store later)
    (member : checkpoint ∈ store.heads threadId space) :
    checkpoint ∈ later.heads threadId space := by
  obtain ⟨added, heads⟩ := grown.heads
  rw [heads]
  exact List.mem_append_left _ member

theorem grown_addWrites (mine : Nat → Prop) (store : CheckpointStore)
    (thread namespaceName : String) (checkpointId : Id)
    (writes : List PendingWrite) (taskId : TaskId) : Grown threadId space mine store
      (store.addWrites thread namespaceName checkpointId writes taskId) := by
  have heads := store.heads_addWrites thread namespaceName checkpointId writes
    taskId threadId space
  refine ⟨⟨[], by rw [heads, List.append_nil]⟩, by rw [heads]; exact id, ?_⟩
  intro tuple member
  obtain ⟨old, stored, rfl⟩ := List.mem_map.mp member
  exact .inl ⟨old, stored,
    (CheckpointStore.writeTuple_header _ _ _ _ _ old).1.symm⟩

end Grown

/-- `origin` reads off a trace whether the party has started and from which
checkpoint, `admits` says under which condition its calls are made. -/
structure Party where
  threadId : String
  space : String
  run : Nat
  origin : Trace → Option (Option Id)
  admits : CheckpointStore → StoreOp → Prop

namespace Party

variable (party : Party)

def heads (store : CheckpointStore) : List Checkpoint :=
  store.heads party.threadId party.space

structure Kept (store : CheckpointStore) (past : Trace) : Prop where
  chained : Chained (party.heads store)
  own : ∀ checkpoint ∈ storedBy past, checkpoint ∈ party.heads store ∧
    checkpoint.id.run = party.run
  first : ∀ checkpoint, (storedBy past).head? = some checkpoint →
    party.origin past = some checkpoint.parentId
  reported : Reports past → storedBy past ≠ []
  drawn : ∀ tuple ∈ store, tuple.checkpoint.id.run = party.run →
    tuple.checkpoint ∈ storedBy past

variable {party}
variable {store later : CheckpointStore} {past : Trace}

theorem Kept.stable
    (grown : Grown party.threadId party.space (· ≠ party.run) store later)
    (kept : party.Kept store past) : party.Kept later past := by
  refine ⟨grown.chained kept.chained, ?_, kept.first, kept.reported, ?_⟩
  · intro checkpoint member
    obtain ⟨stored, run⟩ := kept.own checkpoint member
    exact ⟨grown.mem_heads stored, run⟩
  · intro tuple member run
    rcases grown.drawn tuple member with ⟨old, stored, same⟩ | foreign
    · rw [← same] at run ⊢
      exact kept.drawn old stored run
    · exact absurd run foreign

variable (party) in
def setting : Setting storeInterface Obs CheckpointStore where
  rely := Grown party.threadId party.space (· ≠ party.run)
  guarantee := Grown party.threadId party.space (· = party.run)
  admits := party.admits
  during := party.Kept
  refl := Grown.refl
  trans := Grown.trans
  stable := Kept.stable

structure Holding (party : Party) (internal : RunInternalState)
    (store : CheckpointStore) (past : Trace) : Prop where
  kept : party.Kept store past
  run : internal.run = party.run
  below : ∀ checkpoint ∈ storedBy past, checkpoint.id.seq < internal.nextId
  parent : ∃ start, party.origin past = some start ∧
    internal.parentCheckpointId =
      ((storedBy past).getLast?.map Checkpoint.id).or start
  placed : ∀ parentId, internal.parentCheckpointId = some parentId →
    ∃ checkpoint ∈ party.heads store, checkpoint.id = parentId ∧
      checkpoint.stepNumber < internal.stepNumber
  settled : ∀ more, party.origin (past ++ more) = party.origin past
  guarded : internal.parentCheckpointId = none →
    ∀ store thread space checkpoint metadata,
      party.admits store (.put thread space checkpoint metadata none) →
        party.heads store = []

variable {internal : RunInternalState}

theorem Holding.stable (holding : party.Holding internal store past)
    (grown : Grown party.threadId party.space (· ≠ party.run) store later) :
    party.Holding internal later past := by
  refine { holding with kept := holding.kept.stable grown, placed := ?_ }
  intro parentId named
  obtain ⟨checkpoint, member, same, below⟩ := holding.placed parentId named
  exact ⟨checkpoint, grown.mem_heads member, same, below⟩

theorem Holding.extend (holding : party.Holding internal store past)
    {more : Trace} (bare : storedBy more = [])
    (calm : storedBy past ≠ [] ∨ ∀ obs : Obs, .told obs ∈ more →
      obs.persisted = false) : party.Holding internal store (past ++ more) := by
  have same : storedBy (past ++ more) = storedBy past := by
    rw [storedBy_append, bare, List.append_nil]
  have kept := holding.kept
  refine ⟨⟨kept.chained, ?_, ?_, ?_, ?_⟩, holding.run, ?_, ?_, holding.placed,
    ?_, holding.guarded⟩
  · rw [same]
    exact kept.own
  · rw [same, holding.settled]
    exact kept.first
  · rw [same]
    rintro ⟨obs, told, persisted⟩
    rcases List.mem_append.mp (mem_observed.mp told) with earlier | here
    · exact kept.reported ⟨obs, mem_observed.mpr earlier, persisted⟩
    · rcases calm with stored | calm
      · exact stored
      · rw [calm obs here] at persisted
        cases persisted
  · rw [same]
    exact kept.drawn
  · rw [same]
    exact holding.below
  · rw [same, holding.settled]
    exact holding.parent
  · intro others
    rw [List.append_assoc, holding.settled, holding.settled]

theorem Holding.onward (holding : party.Holding internal store past)
    (run : next.run = internal.run)
    (parent : next.parentCheckpointId = internal.parentCheckpointId)
    (grows : internal.nextId ≤ next.nextId) (steps : internal.stepNumber ≤ next.stepNumber) :
    party.Holding next store past := by
  refine ⟨holding.kept, run.trans holding.run, ?_, parent ▸ holding.parent,
    ?_, holding.settled, ?_⟩
  · intro checkpoint member
    exact Nat.lt_of_lt_of_le (holding.below checkpoint member) grows
  · rw [parent]
    intro parentId named
    obtain ⟨checkpoint, member, same, below⟩ := holding.placed parentId named
    exact ⟨checkpoint, member, same, Nat.lt_of_lt_of_le below steps⟩
  · rw [parent]
    exact holding.guarded

end Party

section Put

variable {party : Party} {args : DriveRunArgs} {now : Nat}
variable {request : PersistRequest} {store : CheckpointStore} {past : Trace}
variable (thread : args.threadId = party.threadId)
variable (space : namespaceFor args.config = party.space)

def PersistRequest.putOp (request : PersistRequest) (args : DriveRunArgs)
    (now : Nat) : StoreOp :=
  .put args.threadId (namespaceFor args.config) (request.checkpoint args now)
    (request.metadata args) (request.internal.parentCheckpointId.map some)

theorem Party.Holding.unused (holding : party.Holding request.internal store past) :
    store.Every fun stored _ => stored.id ≠ (request.checkpoint args now).id := by
  intro tuple member same
  have run : tuple.checkpoint.id.run = party.run := by
    rw [same]
    exact holding.run
  have below := holding.below _ (holding.kept.drawn tuple member run)
  rw [same] at below
  exact Nat.lt_irrefl _ below

include thread space

/-- Where the comparison of `put` passes, the checkpoint comes behind the last
one of the thread. -/
theorem Party.Holding.behind (holding : party.Holding request.internal store past)
    (admitted : party.admits store (request.putOp args now))
    (agrees : store.conflictOf args.threadId (namespaceFor args.config)
      (request.internal.parentCheckpointId.map some) = none) :
    Trails Checkpoint.id Checkpoint.parentId Checkpoint.stepNumber
      (request.checkpoint args now) (party.heads store).getLast? := by
  have latest := latest_chained holding.kept.chained
  change _ = (party.heads store).getLast? at latest
  rw [thread, space] at agrees
  cases parent : request.internal.parentCheckpointId with
  | none =>
    have empty : party.heads store = [] := by
      rw [PersistRequest.putOp, parent] at admitted
      exact holding.guarded parent store _ _ _ _ admitted
    rw [empty]
    exact parent
  | some parentId =>
    obtain ⟨checkpoint, member, same, below⟩ := holding.placed parentId parent
    rw [parent] at agrees
    simp only [Option.map_some, CheckpointStore.conflictOf,
      ite_eq_left_iff, reduceCtorEq, imp_false, Decidable.not_not] at agrees
    rw [← latest]
    cases found : store.latest party.threadId party.space with
    | none =>
      rw [found] at agrees
      cases agrees
    | some tuple =>
      rw [found, Option.map_some, Option.some.injEq] at agrees
      rw [found] at latest
      have listed : tuple.checkpoint ∈ party.heads store :=
        List.mem_of_getLast? latest.symm
      have last : checkpoint = tuple.checkpoint :=
        holding.kept.chained.eq_of_key member listed
          (same.trans agrees.symm)
      exact ⟨parent.trans (by rw [agrees]), last ▸ below⟩

theorem Party.Holding.put (holding : party.Holding request.internal store past)
    (admitted : party.admits store (request.putOp args now))
    (agrees : store.conflictOf args.threadId (namespaceFor args.config)
      (request.internal.parentCheckpointId.map some) = none) :
    Grown party.threadId party.space (· = party.run) store
        (request.inserted args now store) ∧
      party.Holding request.advanced (request.inserted args now store)
        (past ++ [.called (request.putOp args now)
          (.ok () : Except CheckpointConflict Unit)]) := by
  have behind := holding.behind thread space admitted agrees
  have unused : store.Every fun stored _ =>
      stored.id ≠ (request.checkpoint args now).id := holding.unused
  have heads : party.heads (request.inserted args now store) =
      party.heads store ++ [request.checkpoint args now] := by
    rw [Party.heads, Party.heads, ← thread, ← space]
    exact CheckpointStore.heads_insert unused
  have fresh : (request.checkpoint args now).id ∉
      (party.heads store).map Checkpoint.id := by
    intro used
    obtain ⟨checkpoint, member, same⟩ := List.mem_map.mp used
    obtain ⟨tuple, stored, rfl⟩ := CheckpointStore.mem_heads member
    exact unused tuple stored same
  have chained : Chained (party.heads (request.inserted args now store)) := by
    rw [heads]
    exact holding.kept.chained.concat behind fresh
  have tuples : ∀ tuple ∈ request.inserted args now store,
      tuple ∈ store ∨ tuple.checkpoint = request.checkpoint args now := by
    intro tuple member
    rw [PersistRequest.inserted, CheckpointStore.insert_unused unused] at member
    rcases List.mem_append.mp member with earlier | here
    · exact .inl earlier
    · rw [List.mem_singleton.mp here]
      exact .inr rfl
  have stored : storedBy (past ++ [.called (request.putOp args now)
      (.ok () : Except CheckpointConflict Unit)]) =
        storedBy past ++ [request.checkpoint args now] := by
    rw [storedBy_append]
    rfl
  have run : (request.checkpoint args now).id.run = party.run := holding.run
  refine ⟨⟨⟨_, heads⟩, fun _ => chained, ?_⟩, ⟨chained, ?_, ?_, ?_, ?_⟩,
    holding.run, ?_, ?_, ?_, ?_, by rintro ⟨⟩⟩
  · intro tuple member
    rcases tuples tuple member with earlier | here
    · exact .inl ⟨tuple, earlier, rfl⟩
    · exact .inr (here ▸ run)
  · rw [stored, heads]
    intro checkpoint member
    rcases List.mem_append.mp member with earlier | here
    · obtain ⟨listed, own⟩ := holding.kept.own checkpoint earlier
      exact ⟨List.mem_append_left _ listed, own⟩
    · rw [List.mem_singleton.mp here]
      exact ⟨by simp, run⟩
  · rw [stored, holding.settled]
    intro checkpoint first
    cases earlier : storedBy past with
    | nil =>
      rw [earlier] at first
      cases first
      obtain ⟨start, began, parent⟩ := holding.parent
      rw [earlier] at parent
      exact began.trans (congrArg some parent.symm)
    | cons =>
      rw [earlier] at first
      exact holding.kept.first checkpoint (by rw [earlier]; exact first)
  · rw [stored]
    simp
  · rw [stored]
    intro tuple member own
    rcases tuples tuple member with earlier | here
    · exact List.mem_append_left _ (holding.kept.drawn tuple earlier own)
    · rw [here]
      simp
  · rw [stored]
    intro checkpoint member
    rcases List.mem_append.mp member with earlier | here
    · exact Nat.lt_succ_of_lt (holding.below checkpoint earlier)
    · rw [List.mem_singleton.mp here]
      exact Nat.lt_succ_self _
  · obtain ⟨start, began, -⟩ := holding.parent
    refine ⟨start, by rw [holding.settled, began], ?_⟩
    rw [stored, List.getLast?_concat]
    rfl
  · rintro parentId ⟨⟩
    refine ⟨request.checkpoint args now, ?_, rfl, Nat.lt_succ_self _⟩
    rw [heads]
    simp
  · intro more
    rw [List.append_assoc, holding.settled, holding.settled]

end Put

section Rules

variable {order : RowOrder} {party : Party} {args : DriveRunArgs}
variable {internal : RunInternalState} {store : CheckpointStore} {past : Trace}

theorem amid_liftError {outcome : Except WorkflowError α}
    {post : Except Fault α → CheckpointStore → Trace → Prop}
    (kept : party.Kept store past)
    (passed : ∀ value, outcome = .ok value → post (.ok value) store past)
    (failed : ∀ error, outcome = .error error →
      post (.error (.workflow error)) store past) :
    (liftError outcome).amid (storeHandler order) party.setting post store
      past := by
  cases outcome with
  | ok value => exact ⟨kept, passed value rfl⟩
  | error error => exact ⟨kept, failed error rfl⟩

theorem Party.Holding.wrote (holding : party.Holding internal store past)
    (relied : party.setting.rely store later) (thread space : String) (checkpointId : Id)
    (writes : List PendingWrite) (taskId : TaskId) : party.Holding internal
      (later.addWrites thread space checkpointId writes taskId)
      (past ++ [.called (.putWrites thread space checkpointId writes taskId)
        ()]) := by
  refine ((holding.stable relied).stable (grown_addWrites _ _ _ _ _ _ _)).extend
    rfl (.inr ?_)
  intro obs told
  rw [List.mem_singleton] at told
  cases told

variable {post : Except Fault Unit → CheckpointStore → Trace → Prop}

theorem amid_putPendingWrites {checkpointId : Id}
    {groups : Record TaskId (List ChannelWrite)}
    (holding : party.Holding internal store past)
    (ending : ∀ later more, party.Holding internal later (past ++ more) →
      post (.ok ()) later (past ++ more)) :
    (putPendingWrites args checkpointId groups).amid (storeHandler order)
      party.setting post store past := by
  induction groups generalizing store past with
  | nil =>
    have here := ending store []
    rw [List.append_nil] at here
    exact ⟨holding.kept, here holding⟩
  | cons group _ ih =>
    obtain ⟨taskId, writes⟩ := group
    refine ⟨holding.kept, ?_⟩
    intro later relied _
    refine ⟨grown_addWrites _ _ _ _ _ _ _,
      ih (holding.wrote relied _ _ _ _ _) ?_⟩
    intro later more
    rw [List.append_assoc]
    exact ending later _

theorem amid_playActs (holding : party.Holding internal store past)
    (calm : ∀ obs ∈ actsObs acts, obs.persisted = false)
    (ending : ∀ later past, party.Holding internal later past → post (.ok ()) later past) :
    (playActs args acts).amid (storeHandler order) party.setting post store
      past := by
  induction acts generalizing store past with
  | nil => exact ⟨holding.kept, ending _ _ holding⟩
  | cons act rest ih =>
    have others : ∀ obs ∈ actsObs rest, obs.persisted = false := by
      intro obs member
      exact calm obs (by simp [member])
    cases act with
    | tell obs =>
      refine ⟨holding.kept, ih (holding.extend rfl (.inr ?_)) others⟩
      intro told member
      rw [List.mem_singleton] at member
      cases member
      exact calm obs (by simp [Act.obs])
    | journal =>
      refine ⟨holding.kept, ?_⟩
      intro later relied _
      exact ⟨grown_addWrites _ _ _ _ _ _ _,
        ih (holding.wrote relied _ _ _ _ _) others⟩

theorem amid_reports (holding : party.Holding internal store past)
    (calm : storedBy past ≠ [] ∨ ∀ obs ∈ observations, obs.persisted = false)
    (ending : ∀ more, party.Holding internal store (past ++ more) →
      post (.ok ()) store (past ++ more)) :
    (Program.tellAll observations : EngineM Unit).amid (storeHandler order)
      party.setting post store past := by
  have told : ∀ before after, observations = before ++ after →
      party.Holding internal store (past ++ before.map .told) := by
    intro before after split
    refine holding.extend (storedBy_told before) (calm.imp_right ?_)
    intro calm obs member
    obtain ⟨seen, listed, same⟩ := List.mem_map.mp member
    cases same
    exact calm obs (by rw [split]; exact List.mem_append_left _ listed)
  refine Program.amid_tellAll (fun before after split =>
    (told before after split).kept) (ending _ (told observations [] (by simp)))

variable (thread : args.threadId = party.threadId)
variable (space : namespaceFor args.config = party.space)

include thread space

variable {now : Nat}

theorem amid_storeCheckpoint {request : PersistRequest}
    {post : Except Fault (Option Id) → CheckpointStore → Trace → Prop}
    (holding : party.Holding request.internal store past)
    (safe : frontierSafe request = .ok ())
    (refused : ∀ error later past, party.Holding request.internal later past →
      Refused request error → post (.error (.workflow error)) later past)
    (stored : ∀ later past, party.Holding request.advanced later past → storedBy past ≠ [] →
      post (.ok (some (request.checkpoint args now).id)) later past)
    : (storeCheckpoint args now request).amid (storeHandler order) party.setting
      post store past := by
  refine ⟨holding.kept, ?_⟩
  intro later relied _
  refine ⟨Grown.refl _, ?_⟩
  have read : party.Holding request.internal later
      (past ++ [.called (.getTuple args.threadId (namespaceFor args.config))
        ((later.latest args.threadId (namespaceFor args.config)).map
          fun tuple => { tuple with
            pendingWrites := order.arrange tuple.pendingWrites })]) := by
    refine (holding.stable relied).extend rfl (.inr ?_)
    intro obs told
    rw [List.mem_singleton] at told
    cases told
  show Program.amid _ _ _ (Program.bind (liftError (precheck args.threadId
    request.internal (Option.map _ (later.latest args.threadId
      (namespaceFor args.config))))) _) _ _
  apply Program.amid_bind
  apply amid_liftError read.kept
  · intro _ checked
    show Program.amid _ _ _ (Program.bind _ _) _ _
    apply Program.amid_bind
    apply amid_liftError read.kept
    · intro state serialized
      refine ⟨read.kept, ?_⟩
      intro last relied admitted
      have found := read.stable relied
      cases conflicts : last.conflictOf args.threadId
          (namespaceFor args.config)
          (request.internal.parentCheckpointId.map some) with
      | some conflict =>
        simp only [storeHandler, conflicts]
        refine ⟨Grown.refl _, ?_⟩
        have lost := @Party.Holding.extend _ _ _ _ found
          [.called (request.putOp args now)
            (.error conflict : Except CheckpointConflict Unit)] rfl
          (.inr fun obs told => by
            rw [List.mem_singleton] at told
            cases told)
        exact ⟨lost.kept, refused _ _ _ lost (.inl rfl)⟩
      | none =>
        obtain ⟨grown, put⟩ := found.put thread space admitted conflicts
        simp only [storeHandler, conflicts]
        refine ⟨grown, ?_⟩
        show Program.amid _ _ _ (Program.bind (putPendingWrites args
          (request.checkpoint args now).id request.pendingWritesByTask) _) _ _
        apply Program.amid_bind
        refine amid_putPendingWrites put ?_
        intro later more holding
        refine ⟨holding.kept, stored later _ holding ?_⟩
        rw [storedBy_append, storedBy_append]
        simp [storedBy, putOf]
    · intro error unserialized
      refine refused error _ _ read (.inr ?_)
      simp [requestVerdict, safe, unserialized, bind, Except.bind]
  · intro error conflict
    exact refused error _ _ read (.inl (precheck_refused conflict))

theorem amid_performExit {exit : Exit}
    {post : Except Fault Next → CheckpointStore → Trace → Prop}
    (holding : party.Holding exit.request.internal store past)
    (calm : exit.request.skips args = true → ∀ obs ∈ exit.report none, obs.persisted = false)
    (refused : ∀ error later past, party.Holding exit.request.internal later past →
      Refused exit.request error → post (.error (.workflow error)) later past)
    (skipped : exit.request.skips args = true → ∀ past,
      party.Holding exit.request.internal store past → post (.ok (exit.next none)) store past)
    (stored : ∀ later past, party.Holding exit.request.advanced later past → storedBy past ≠ [] →
      post (.ok (exit.next (some (exit.request.checkpoint args now).id))) later past)
    : (performExit args now exit).amid (storeHandler order) party.setting post
      store past := by
  have refusal : ∀ error, Refused exit.request error →
      ∀ later past, party.Holding exit.request.internal later past →
      Program.amidst (storeHandler order) party.setting
        (fun checkpointId => (Program.tellAll (exit.report checkpointId)).bind
          fun _ => .done (exit.next checkpointId)) post
        (.error (.workflow error)) later past :=
    fun error reason later past holding =>
      refused error later past holding reason
  rw [performExit, Program.bind_eq]
  apply Program.amid_bind
  rw [persistCheckpoint, Program.bind_eq]
  apply Program.amid_bind
  apply amid_liftError holding.kept
  · intro _ safe
    show Program.amid _ _ _ (ite _ _ _) _ _
    by_cases skips : args.durability = .exit ∧ exit.request.status = .running
    · have skipping : exit.request.skips args = true := by
        simpa [PersistRequest.skips] using skips
      rw [if_pos skips, Program.bind_eq]
      apply Program.amid_bind
      apply amid_liftError holding.kept
      · intro state serialized
        refine ⟨holding.kept, ?_⟩
        apply Program.amid_bind
        refine amid_reports holding (.inr (calm skipping)) ?_
        intro more told
        exact ⟨told.kept, skipped skipping _ told⟩
      · intro error unserialized
        refine refusal error (.inr ?_) _ _ holding
        simp [requestVerdict, safe, unserialized, bind, Except.bind]
    · rw [if_neg skips]
      apply amid_storeCheckpoint thread space holding safe
      · intro error later past held reason
        exact refusal error reason later past held
      · intro later past held kept
        apply Program.amid_bind
        refine amid_reports held (.inl kept) ?_
        intro more told
        refine ⟨told.kept, stored later _ told ?_⟩
        rw [storedBy_append]
        simp [kept]
  · intro error unsafeFrontier
    refine refusal error (.inr ?_) _ _ holding
    simp [requestVerdict, unsafeFrontier, bind, Except.bind]

end Rules

def Party.Driven (party : Party) (own : Fault → Prop) :
    Except Fault Unit → CheckpointStore → Trace → Prop
  | .ok _, store, past => (∃ internal, party.Holding internal store past) ∧
      storedBy past ≠ []
  | .error fault, store, past =>
    (∃ internal, party.Holding internal store past) ∧
      (storedBy past ≠ [] ∨ fault.code = .checkpointVersionConflict ∨ own fault)

/-- The end of one pass. -/
def Party.Passed (party : Party) (args : DriveRunArgs) (own : Fault → Prop)
    (internal : RunInternalState) :
    Except Fault Next → CheckpointStore → Trace → Prop
  | .error fault, store, past => party.Driven own (.error fault) store past
  | .ok (.raise fault), store, past =>
    party.Driven own (.error fault) store past
  | .ok .close, store, past => party.Driven own (.ok ()) store past
  | .ok (.loop next), store, past => party.Holding next store past ∧
      ∃ exit checkpointId, (decideRound args internal).finish = .ok exit ∧
        exit.next checkpointId = .loop next

section Passes

variable {order : RowOrder} {party : Party} {args : DriveRunArgs}
variable {internal : RunInternalState} {store : CheckpointStore} {past : Trace}
variable {own : Fault → Prop}
variable (thread : args.threadId = party.threadId)
variable (space : namespaceFor args.config = party.space)

theorem persisted_inStep {obs : Obs} (inside : obs.inStep = true) :
    obs.persisted = false := by
  cases obs with
  | planned => rfl
  | ran => rfl
  | event event =>
    cases event with
    | suspended => cases inside
    | ended => cases inside
    | checkpointWritten => cases inside
    | _ => rfl

theorem Decided.acts_calm {round : Round} (decided : Decided args internal round) :
    ∀ obs ∈ actsObs round.acts, obs.persisted = false := by
  rcases decided.acts_inStep with empty | ⟨tasks, rest, acts, inside⟩
  · simp [empty]
  · rw [acts]
    intro obs member
    rcases List.mem_cons.mp member with rfl | later
    · rfl
    · exact persisted_inStep (inside obs later)

/-- A pass is refused when the thread has moved on or for what it asks to store. -/
theorem refused_conflict (owns : ∀ fault, PassFaults args internal fault → own fault)
    (finished : (decideRound args internal).finish = .ok exit)
    (same : requestVerdict request = requestVerdict exit.request)
    (refused : Refused request error) :
    error.code = .checkpointVersionConflict ∨ own (.workflow error) := by
  refine refused.imp_right fun unsafeRequest => owns _ (.inr ?_)
  exact ⟨exit, error, finished, same.symm.trans unsafeRequest, rfl⟩

include thread space

theorem amid_afterStep (owns : ∀ fault, PassFaults args internal fault → own fault)
    (finished : (decideRound args internal).finish = .ok exit)
    (held : ∃ internal, party.Holding internal store past)
    (kept : storedBy past ≠ [] ∨ ∃ next, exit.next checkpointId = .loop next)
    (again : ∀ next, exit.next checkpointId = .loop next → party.Holding next store past) :
    (afterStep args (args.env internal.stepsThisInvocation)
      (exit.next checkpointId)).amid (storeHandler order) party.setting
      (party.Passed args own internal) store past := by
  obtain ⟨any, held⟩ := held
  cases onward : exit.next checkpointId with
  | raise =>
    rw [onward] at kept
    exact ⟨held.kept, ⟨any, held⟩, .inl (by simpa using kept)⟩
  | close =>
    rw [onward] at kept
    exact ⟨held.kept, ⟨any, held⟩, by simpa using kept⟩
  | loop next =>
    have holding := again next onward
    show Program.amid _ _ _ (ite _ _ _) _ _
    split
    · have stored : (abortExit args next).request.skips args = false := by
        simp [PersistRequest.skips, abortExit, terminalExit]
      have asked : party.Holding (abortExit args next).request.internal store
          past := holding
      apply amid_performExit thread space asked
      · intro skips
        cases stored.symm.trans skips
      · intro error later past lost refused
        exact ⟨⟨_, lost⟩, .inr (refused_conflict owns finished
          (requestVerdict_abort finished onward) refused)⟩
      · intro skips
        cases stored.symm.trans skips
      · intro later past put kept
        exact ⟨⟨_, put⟩, .inl kept⟩
    · exact ⟨holding.kept, holding, exit, checkpointId, finished, onward⟩

theorem amid_driveRound (owns : ∀ fault, PassFaults args internal fault → own fault)
    (holding : party.Holding internal store past) :
    (driveRound args internal).amid (storeHandler order) party.setting
      (party.Passed args own internal) store past := by
  have decided := decideRound_decided args internal
  rw [driveRound, Program.bind_eq]
  apply Program.amid_bind
  refine amid_playActs holding decided.acts_calm ?_
  intro store past holding
  apply Program.amid_bind
  cases finished : (decideRound args internal).finish with
  | error fault =>
    exact ⟨holding.kept, ⟨internal, holding⟩, .inr (.inr (owns fault (.inl finished)))⟩
  | ok exit =>
    obtain ⟨parent, run, steps⟩ := decided.parent finished
    have drawn := decided.drawn finished
    have asked : party.Holding exit.request.internal store past :=
      holding.onward run parent drawn (Nat.le_of_eq steps.symm)
    apply amid_performExit thread space asked
    · intro skips
      obtain ⟨merged, rfl⟩ := decided.skipped finished skips
      intro obs member
      obtain ⟨-, same⟩ : _ ∧ obs = _ := by
        simpa [runningExit, DriveRunArgs.stepReport,
          DriveRunArgs.checkpointReport, reportIf] using member
      rw [same]
      rfl
    · intro error later past lost refused
      exact ⟨⟨_, lost⟩, .inr (refused_conflict owns finished rfl
        refused)⟩
    · intro skips past told
      obtain ⟨merged, rfl⟩ := decided.skipped finished skips
      refine amid_afterStep thread space owns finished ⟨_, told⟩
        (.inr ⟨_, rfl⟩) ?_
      rintro next ⟨⟩
      exact told.onward rfl rfl (Nat.le_succ _) (Nat.le_succ _)
    · intro later past put kept
      refine amid_afterStep thread space owns finished ⟨_, put⟩
        (.inl kept) ?_
      intro next loops
      obtain ⟨merged, rfl⟩ := decided.running finished
        (decided.onward finished loops).1
      cases loops
      exact put.onward rfl rfl (Nat.le_refl _) (Nat.le_refl _)

/-- A run that is driven stores a checkpoint, is overtaken, or meets a fault of
its own. -/
theorem amid_driveLoop (owns : ∀ internal fault, Passes args start internal →
      PassFaults args internal fault → own fault) (fuel : Nat)
    (enough : args.config.stepCap < internal.stepsThisInvocation + fuel)
    (started : internal.stepsThisInvocation ≤ args.config.stepCap)
    (passes : Passes args start internal) (holding : party.Holding internal store past) :
    (driveLoop args fuel internal).amid (storeHandler order) party.setting
      (party.Driven own) store past := by
  induction fuel generalizing internal store past with
  | zero => omega
  | succ fuel ih =>
    rw [driveLoop, Program.bind_eq]
    apply Program.amid_bind
    refine Program.amid_mono ?_ (amid_driveRound thread space
      (fun fault => owns internal fault passes) holding)
    intro result store past kept reached
    cases result with
    | error => exact reached
    | ok next =>
      cases next with
      | raise => exact ⟨kept, reached⟩
      | close => exact ⟨kept, reached⟩
      | loop =>
        obtain ⟨holding, exit, checkpointId, finished, loops⟩ := reached
        obtain ⟨below, counted⟩ :=
          (decideRound_decided args internal).loops finished loops
        exact ih (by omega) (by omega) (passes.onward finished loops) holding

def Party.Reported (party : Party) (own : Fault → Prop) :
    Except Fault Unit → CheckpointStore → Trace → Prop :=
  fun _ store past => (∃ internal, party.Holding internal store past) ∧
    (storedBy past ≠ [] ∨ ∃ fault,
      lastTold past = some (emitError party.threadId fault) ∧
        (fault.code = .checkpointVersionConflict ∨ own fault))

theorem amid_driveReporting (owns : ∀ reached fault, Passes args internal reached →
      PassFaults args reached fault → own fault)
    (first : internal.stepsThisInvocation = 0)
    (holding : party.Holding internal store past) :
    (driveReporting args internal).amid (storeHandler order) party.setting
      (party.Reported own) store past := by
  apply Program.amid_catchFail
  refine Program.amid_mono ?_ (amid_driveLoop thread space owns _
    (by omega) (by omega) .start holding)
  intro result store past kept reached
  cases result with
  | ok => exact ⟨reached.1, .inl reached.2⟩
  | error fault =>
    obtain ⟨⟨any, held⟩, ended⟩ := reached
    have told := @Party.Holding.extend _ _ _ _ held
      [.told (emitError args.threadId fault)] rfl (.inr ?_)
    · refine ⟨kept, told.kept, ⟨any, told⟩, ?_⟩
      rcases ended with stored | reason
      · left
        rw [storedBy_append]
        simp [stored]
      · right
        refine ⟨fault, ?_, reason⟩
        rw [← thread]
        simp [lastTold, observed]
    · intro obs member
      rw [List.mem_singleton] at member
      cases member
      rfl

end Passes

end Graphorin.Workflow
