import Graphorin.Workflow.Failures
import Graphorin.Workflow.Race

namespace Graphorin.Workflow

open Graphorin.Lib
open Graphorin.Js

/-! Any number of invocations of any number of workflow instances on one thread
that has a checkpoint.  Each of them restores the latest checkpoint it reads
and compares every put with the one before. -/

structure Instance where
  config : WorkflowConfig
  invocation : Invocation
  options : InvocationOptions

namespace Instance

variable (peer : Instance) (threadId : String) (run : Nat)

def optionsAt : InvocationOptions := { peer.options with run := run }

def program : EngineM Unit :=
  peer.invocation.program peer.config threadId (peer.optionsAt run)

def args : DriveRunArgs :=
  driveArgs peer.config threadId (peer.optionsAt run)

end Instance

/-- The peers draw their ids under numbers of their own. -/
def sharing (threadId : String) (base : Nat) (peers : Nat → Instance)
    (store : CheckpointStore) :
    Pool storeInterface Obs Fault Unit CheckpointStore Nat :=
  .start (fun peer => (peers peer).program threadId (base + peer)) store

/-! The checkpoint an invocation has restored: the one read last before it
reports `workflow.resumed`. -/

def startFrom : Option CheckpointTuple → Trace → Option CheckpointTuple
  | _, [] => none
  | _, .called (.getTuple _ _) answer :: rest => startFrom answer rest
  | read, .called (.put _ _ _ _ _) _ :: rest => startFrom read rest
  | read, .called (.putWrites _ _ _ _ _) _ :: rest => startFrom read rest
  | read, .told (.event (.resumed _ _ _)) :: _ => read
  | read, .told _ :: rest => startFrom read rest

def startOf (trace : Trace) : Option CheckpointTuple := startFrom none trace

def OnlyReads (past : Trace) : Prop :=
  ∀ action ∈ past, ∃ threadId space answer,
    action = .called (.getTuple threadId space) answer

theorem startFrom_reads (reads : OnlyReads past) (read : Option CheckpointTuple) :
    ∃ last, ∀ rest, startFrom read (past ++ rest) = startFrom last rest := by
  induction past generalizing read with
  | nil => exact ⟨read, fun _ => rfl⟩
  | cons action _ ih =>
    obtain ⟨threadId, space, answer, rfl⟩ := reads action (by simp)
    obtain ⟨last, onward⟩ := ih
      (fun other member => reads other (List.mem_cons_of_mem _ member)) answer
    exact ⟨last, onward⟩

theorem startFrom_append {read : Option CheckpointTuple} {past : Trace}
    {tuple : CheckpointTuple} (started : startFrom read past = some tuple)
    (more : Trace) : startFrom read (past ++ more) = some tuple := by
  induction past generalizing read with
  | nil => cases started
  | cons action _ ih =>
    cases action with
    | called op =>
      cases op with
      | getTuple => exact ih started
      | put => exact ih started
      | putWrites =>
        exact ih started
    | told obs =>
      cases obs with
      | planned => exact ih started
      | ran => exact ih started
      | event event =>
        cases event with
        | resumed => exact started
        | _ => exact ih started

theorem startFrom_read (read : Option CheckpointTuple) (past : Trace)
    (thread space : String) (answer : Option CheckpointTuple) :
    startFrom read (past ++ [.called (.getTuple thread space) answer]) =
      startFrom read past := by
  induction past generalizing read with
  | nil => rfl
  | cons action _ ih =>
    cases action with
    | called other =>
      cases other with
      | getTuple => exact ih _
      | put => exact ih _
      | putWrites => exact ih _
    | told obs =>
      cases obs with
      | planned => exact ih _
      | ran => exact ih _
      | event event =>
        cases event with
        | resumed => rfl
        | _ => exact ih _

def Instance.party (threadId name : String) (run : Nat) : Party where
  threadId := threadId
  space := "workflow/" ++ name
  run := run
  origin := fun trace =>
    (startOf trace).map fun tuple => some tuple.checkpoint.id
  admits := fun _ _ => True

def Answered (past : Trace) (answer : Option CheckpointTuple) : Prop :=
  ∃ threadId space, .called (.getTuple threadId space) answer ∈ past

namespace Instance

variable (peer : Instance) (threadId : String) (run : Nat) (past : Trace)

/-- What a peer restores with; a tick picks a pause that was due in what it read. -/
def Restores (restore : RestoreOptions) : Prop :=
  peer.invocation.restores threadId (peer.optionsAt run) restore ∧
    ∀ now, peer.invocation = .tick now → ∃ tuple due, Answered past (some tuple) ∧
      earliestDue now (readFrontier tuple.metadata).pauses = some due ∧
      restore = tickRestore threadId (peer.optionsAt run) due

/-- What the run that a peer restored from `tuple` meets in one of its passes. -/
def Meets (tuple : CheckpointTuple) (fault : Fault) : Prop :=
  ∃ restore start internal, peer.Restores threadId run past restore ∧
    restoreRun peer.config restore tuple = .ok start ∧
    Passes (peer.args threadId run) start internal ∧
    PassFaults (peer.args threadId run) internal fault

/-- How a peer ends that restores nothing: it reports or throws what it was refused for, or
it is a tick that finds nothing due. -/
inductive Declines : Except Fault Unit → Prop
  | directive {restore : RestoreOptions} {error : WorkflowError} :
      peer.Restores threadId run past restore →
      checkDirective restore.directive = .error error →
      lastTold past = some (emitError threadId (.workflow error)) →
        Declines (.ok ())
  | unknown : Answered past none →
      lastTold past = some (emitError threadId (.workflow (.threadNotFound threadId))) →
        Declines (.ok ())
  | refused {restore : RestoreOptions} {tuple : CheckpointTuple} {error : WorkflowError} :
      peer.Restores threadId run past restore → Answered past (some tuple) →
      restoreRun peer.config restore tuple = .error (.reported error) →
      lastTold past = some (emitError threadId (.workflow error)) →
        Declines (.ok ())
  | thrown {restore : RestoreOptions} {tuple : CheckpointTuple} {error : WorkflowError} :
      peer.Restores threadId run past restore → Answered past (some tuple) →
      restoreRun peer.config restore tuple = .error (.escaped error) →
        Declines (.error (.workflow error))
  | unknownTick {now : Rat} : peer.invocation = .tick now → Answered past none →
        Declines (.error (.workflow (.threadNotFound threadId)))
  | idleTick {now : Rat} {tuple : CheckpointTuple} : peer.invocation = .tick now →
      Answered past (some tuple) →
      earliestDue now (readFrontier tuple.metadata).pauses = none ∨
        tuple.metadata.status ≠ .suspended →
        Declines (.ok ())

/-- A peer that has restored a run and stored nothing ends with a conflict or what its own
run met; one that has restored nothing declines. -/
structure Ends (result : Except Fault Unit) : Prop where
  overtaken : ∀ tuple, startOf past = some tuple → storedBy past = [] → ∃ fault,
    lastTold past = some (emitError threadId fault) ∧
      (fault.code = .checkpointVersionConflict ∨
        peer.Meets threadId run past tuple fault)
  declined : startOf past = none → peer.Declines threadId run past result

end Instance

section Answers

variable {peer : Instance} {threadId : String} {run : Nat} {past : Trace}

theorem Answered.extend (answered : Answered past answer) (more : Trace) :
    Answered (past ++ more) answer := by
  obtain ⟨thread, space, there⟩ := answered
  exact ⟨thread, space, List.mem_append_left more there⟩

theorem Instance.Restores.extend (restores : peer.Restores threadId run past restore)
    (more : Trace) : peer.Restores threadId run (past ++ more) restore := by
  refine ⟨restores.1, fun now ticks => ?_⟩
  obtain ⟨tuple, due, answered, rest⟩ := restores.2 now ticks
  exact ⟨tuple, due, answered.extend more, rest⟩

theorem Instance.Meets.extend (meets : peer.Meets threadId run past tuple fault)
    (more : Trace) : peer.Meets threadId run (past ++ more) tuple fault := by
  obtain ⟨restore, start, internal, restores, rest⟩ := meets
  exact ⟨restore, start, internal, restores.extend more, rest⟩

theorem Instance.Declines.extend {result : Except Fault Unit}
    (declines : peer.Declines threadId run past result) {more : Trace}
    (told : lastTold (past ++ more) = lastTold past) :
    peer.Declines threadId run (past ++ more) result := by
  cases declines with
  | directive restores checked last =>
    exact .directive (restores.extend more) checked (told.trans last)
  | unknown answered last => exact .unknown (answered.extend more) (told.trans last)
  | refused restores answered refusal last =>
    exact .refused (restores.extend more) (answered.extend more) refusal (told.trans last)
  | thrown restores answered refusal =>
    exact .thrown (restores.extend more) (answered.extend more) refusal
  | unknownTick ticks answered => exact .unknownTick ticks (answered.extend more)
  | idleTick ticks answered quiet =>
    exact .idleTick ticks (answered.extend more) quiet

end Answers

structure Party.Idle (party : Party) (store : CheckpointStore) (past : Trace) :
    Prop where
  chained : Chained (party.heads store)
  bare : storedBy past = []
  silent : ¬ Reports past
  drawn : ∀ tuple ∈ store, tuple.checkpoint.id.run ≠ party.run

section Idle

variable {party : Party} {store later : CheckpointStore} {past : Trace}

theorem Party.Idle.kept (idle : party.Idle store past) : party.Kept store past := by
  refine ⟨idle.chained, ?_, ?_, ?_, ?_⟩
  · rw [idle.bare]
    rintro _ ⟨⟩
  · rw [idle.bare]
    rintro _ ⟨⟩
  · exact fun reports => absurd reports idle.silent
  · exact fun tuple member own => absurd own (idle.drawn tuple member)

theorem Party.Idle.stable (idle : party.Idle store past)
    (grown : Grown party.threadId party.space (· ≠ party.run) store later) :
    party.Idle later past := by
  refine { idle with chained := grown.chained idle.chained, drawn := ?_ }
  intro tuple member
  rcases grown.drawn tuple member with ⟨old, stored, same⟩ | foreign
  · exact same ▸ idle.drawn old stored
  · exact foreign

theorem Party.Idle.extend (idle : party.Idle store past)
    {action : Action storeInterface Obs} (bare : putOf action = none)
    (calm : ∀ obs, action = .told obs → obs.persisted = false) :
    party.Idle store (past ++ [action]) := by
  refine { idle with bare := ?_, silent := ?_ }
  · rw [storedBy_append, idle.bare]
    simp [storedBy, bare]
  · rintro ⟨obs, told, persisted⟩
    rcases List.mem_append.mp (mem_observed.mp told) with earlier | here
    · exact idle.silent ⟨obs, mem_observed.mpr earlier, persisted⟩
    · rw [calm obs (List.mem_singleton.mp here).symm] at persisted
      cases persisted

end Idle

section Peers

variable {order : RowOrder} {peer : Instance} {threadId name : String}
variable {run : Nat} {store : CheckpointStore} {past : Trace}

theorem ends_declined {result : Except Fault Unit} (unstarted : startOf past = none)
    (declines : peer.Declines threadId run past result) :
    peer.Ends threadId run past result := by
  refine ⟨fun tuple started => ?_, fun _ => declines⟩
  cases unstarted.symm.trans started

theorem amid_refused (idle : (Instance.party threadId name run).Idle store past)
    (unstarted : startOf (past ++ [.told (emitError threadId (.workflow error))]) = none)
    (declines : lastTold (past ++ [.told (emitError threadId (.workflow error))]) =
        some (emitError threadId (.workflow error)) →
      peer.Declines threadId run (past ++ [.told (emitError threadId (.workflow error))])
        (.ok ())) :
    (Program.tell (emitError threadId (.workflow error)) : EngineM Unit).amid
      (storeHandler order) (Instance.party threadId name run).setting
      (fun result _ past => peer.Ends threadId run past result) store past := by
  refine ⟨idle.kept, (idle.extend rfl ?_).kept, ends_declined unstarted (declines ?_)⟩
  · rintro _ ⟨⟩
    rfl
  · simp [lastTold, observed]

variable {restore : RestoreOptions}

/-- A restored run, from the report of `workflow.resumed` on. -/
theorem amid_restored {internal : RunInternalState} {tuple : CheckpointTuple}
    (named : peer.config.name = name)
    (idle : (Instance.party threadId name run).Idle store past)
    (restores : peer.Restores threadId run past restore)
    (restored : restoreRun peer.config restore tuple = .ok internal)
    (listed : tuple.checkpoint ∈ (Instance.party threadId name run).heads store)
    (started : startOf (past ++
      [.told (.event (.resumed threadId internal.stepNumber internal.state))]) = some tuple) :
    (driveRestored peer.config threadId (peer.optionsAt run)
      (.ok internal)).amid (storeHandler order)
      (Instance.party threadId name run).setting
      (fun result _ past => peer.Ends threadId run past result) store past := by
  have place := restoreRun_at restored
  have told := @Party.Idle.extend _ _ _ idle (.told (.event (.resumed threadId
    internal.stepNumber internal.state))) rfl (by rintro _ ⟨⟩; rfl)
  have holding : (Instance.party threadId name run).Holding internal store
      (past ++ [.told (.event (.resumed threadId internal.stepNumber
        internal.state))]) := by
    refine ⟨told.kept, ?_, ?_, ⟨some tuple.checkpoint.id, ?_, ?_⟩, ?_, ?_, ?_⟩
    · rw [place.run, Invocation.restores_run restores.1]
      rfl
    · rw [told.bare]
      rintro _ ⟨⟩
    · show (startOf _).map _ = _
      rw [started]
      rfl
    · rw [told.bare, place.parent]
      rfl
    · rw [place.parent, place.stepNumber]
      rintro _ ⟨⟩
      exact ⟨tuple.checkpoint, listed, rfl, Nat.lt_succ_self _⟩
    · intro more
      show (startOf _).map _ = (startOf _).map _
      rw [startOf, startFrom_append started, started]
    · rw [place.parent]
      rintro ⟨⟩
  refine ⟨idle.kept, ?_⟩
  refine Program.amid_mono ?_ (Program.amid_extends (@amid_driveReporting order
    _ (peer.args threadId run) _ _ _ (peer.Meets threadId run past tuple) rfl
    (by rw [← named]; rfl)
    (fun reached fault passes faults =>
      ⟨restore, internal, reached, restores, restored, passes, faults⟩)
    place.steps holding))
  rintro result later past' - ⟨⟨-, outcome⟩, more, rfl⟩
  refine ⟨fun other alsoStarted bare => ?_, fun unstarted => ?_⟩
  · cases (startFrom_append started more).symm.trans alsoStarted
    obtain ⟨fault, last, reason⟩ := outcome.resolve_left (not_not_intro bare)
    refine ⟨fault, last, reason.imp_right fun meets => ?_⟩
    rw [List.append_assoc]
    exact meets.extend _
  · cases (startFrom_append started more).symm.trans unstarted

theorem amid_resumeFrom (named : peer.config.name = name)
    (idle : (Instance.party threadId name run).Idle store past)
    (restores : peer.Restores threadId run past restore) (answered : Answered past answer)
    (read : ∀ rest, startOf (past ++ rest) = startFrom answer rest)
    (listed : ∀ tuple, answer = some tuple → tuple.checkpoint ∈
      (Instance.party threadId name run).heads store) :
    (resumeFrom peer.config threadId (peer.optionsAt run) restore answer).amid
      (storeHandler order) (Instance.party threadId name run).setting
      (fun result _ past => peer.Ends threadId run past result) store past := by
  cases answer with
  | none => exact amid_refused idle (read _) (.unknown (answered.extend _))
  | some tuple =>
    show Program.amid _ _ _ (driveRestored peer.config threadId
      (peer.optionsAt run) (restoreRun peer.config restore tuple)) _ _
    cases outcome : restoreRun peer.config restore tuple with
    | error refusal =>
      cases refusal with
      | reported =>
        exact amid_refused idle (read _)
          (.refused (restores.extend _) (answered.extend _) outcome)
      | escaped =>
        have unstarted := read []
        rw [List.append_nil] at unstarted
        exact ⟨idle.kept, ends_declined unstarted (.thrown restores answered outcome)⟩
    | ok =>
      exact amid_restored named idle restores outcome (listed tuple rfl)
        (read _)

theorem latest_listed (named : peer.config.name = name)
    (found : (store.latest threadId (namespaceFor peer.config)).map order.read = some tuple) :
    tuple.checkpoint ∈ (Instance.party threadId name run).heads store := by
  obtain ⟨stored, latest, rfl⟩ := Option.map_eq_some_iff.mp found
  have member := CheckpointStore.newest_mem latest
  rw [show namespaceFor peer.config = "workflow/" ++ name by
    rw [← named]; rfl] at member
  exact List.mem_map.mpr ⟨stored, member, rfl⟩

theorem Party.Idle.read {later : CheckpointStore} {party : Party}
    (idle : party.Idle store past)
    (relied : party.setting.rely store later) (thread space : String)
    (answer : Option CheckpointTuple) :
    party.Idle later (past ++ [.called (.getTuple thread space) answer]) :=
  (idle.stable relied).extend rfl (by rintro _ ⟨⟩)

theorem amid_resumeEngine (named : peer.config.name = name) (reads : OnlyReads past)
    (idle : (Instance.party threadId name run).Idle store past)
    (restores : peer.Restores threadId run past restore) :
    (resumeEngine peer.config threadId (peer.optionsAt run) restore).amid
      (storeHandler order) (Instance.party threadId name run).setting
      (fun result _ past => peer.Ends threadId run past result) store past := by
  obtain ⟨last, onward⟩ := startFrom_reads reads none
  unfold resumeEngine
  cases checked : checkDirective restore.directive with
  | error =>
    exact amid_refused idle (onward _) (.directive (restores.extend _) checked)
  | ok =>
    refine ⟨idle.kept, ?_⟩
    intro later relied _
    refine ⟨Grown.refl _, amid_resumeFrom named (idle.read relied _ _ _)
      (restores.extend _) ⟨_, _, List.mem_append_right _ List.mem_cons_self⟩ ?_
      fun tuple => latest_listed named⟩
    intro rest
    rw [List.append_assoc]
    exact onward _

/-- Another read changes nothing of what a peer has done. -/
theorem Instance.kept_read (kept : (Instance.party threadId name run).Kept store past)
    (relied : (Instance.party threadId name run).setting.rely store later)
    (thread space : String) (answer : Option CheckpointTuple) :
    (Instance.party threadId name run).Kept later
      (past ++ [.called (.getTuple thread space) answer]) := by
  have bare : storedBy (past ++ [.called (.getTuple thread space) answer]) =
      storedBy past := by
    simp [storedBy, putOf]
  have after := kept.stable relied
  refine ⟨after.chained, ?_, ?_, ?_, ?_⟩
  · rw [bare]
    exact after.own
  · rw [bare]
    intro checkpoint first
    have origin := after.first checkpoint first
    show (startOf _).map _ = _
    rw [startOf, startFrom_read]
    exact origin
  · rw [bare]
    rintro ⟨obs, told, persisted⟩
    refine after.reported ⟨obs, ?_, persisted⟩
    simpa [observed] using told
  · rw [bare]
    exact after.drawn

theorem Instance.ends_read {result : Except Fault Unit}
    (ends : peer.Ends threadId run past result)
    (thread space : String) (answer : Option CheckpointTuple) :
    peer.Ends threadId run (past ++ [.called (.getTuple thread space) answer]) result := by
  have told : lastTold (past ++ [.called (.getTuple thread space) answer]) =
      lastTold past := by
    simp [lastTold, observed]
  refine ⟨fun tuple started bare => ?_, fun unstarted => ?_⟩
  · rw [startOf, startFrom_read] at started
    rw [storedBy_append] at bare
    obtain ⟨fault, last, reason⟩ :=
      ends.overtaken tuple started (List.append_eq_nil_iff.mp bare).1
    exact ⟨fault, told.trans last, reason.imp_right fun meets => meets.extend _⟩
  · rw [startOf, startFrom_read] at unstarted
    exact (ends.declined unstarted).extend told

theorem amid_tickFrom {answer : Option CheckpointTuple} (named : peer.config.name = name)
    (ticks : peer.invocation = .tick now) (reads : OnlyReads past)
    (answered : Answered past answer)
    (idle : (Instance.party threadId name run).Idle store past) :
    (tickFrom peer.config threadId (peer.optionsAt run) now answer).amid
      (storeHandler order) (Instance.party threadId name run).setting
      (fun result _ past => peer.Ends threadId run past result) store past := by
  have unstarted : startOf past = none := by
    obtain ⟨last, onward⟩ := startFrom_reads reads none
    have here := onward []
    rwa [List.append_nil] at here
  cases answer with
  | none => exact ⟨idle.kept, ends_declined unstarted (.unknownTick ticks answered)⟩
  | some tuple =>
    rw [tickFrom]
    split
    · rename_i quiet
      exact ⟨idle.kept, ends_declined unstarted (.idleTick ticks answered (.inl quiet))⟩
    · rename_i due found
      split
      · have restores : peer.Restores threadId run past
            (tickRestore threadId (peer.optionsAt run) due) := by
          refine ⟨by rw [ticks]; exact ⟨due, rfl⟩, fun later same => ?_⟩
          cases ticks.symm.trans same
          exact ⟨tuple, due, answered, found, rfl⟩
        apply Program.amid_bind
        refine Program.amid_mono ?_ (amid_resumeEngine named reads idle
          restores)
        intro result store past kept ends
        cases result with
        | error => exact ends
        | ok =>
          refine ⟨kept, ?_⟩
          intro later relied _
          exact ⟨Grown.refl _, Instance.kept_read kept relied _ _ _,
            Instance.ends_read ends _ _ _⟩
      · rename_i awake
        exact ⟨idle.kept, ends_declined unstarted (.idleTick ticks answered (.inr awake))⟩

theorem Instance.starts (named : peer.config.name = name)
    (restoring : ∀ input, peer.invocation ≠ .execute input)
    (idle : (Instance.party threadId name run).Idle store []) :
    (peer.program threadId run).amid (storeHandler order)
      (Instance.party threadId name run).setting
      (fun result _ past => peer.Ends threadId run past result) store [] := by
  have reads : OnlyReads [] := by rintro _ ⟨⟩
  have resumes : (∀ now, peer.invocation ≠ .tick now) → ∀ restore,
      peer.invocation.restores threadId (peer.optionsAt run) restore →
      (resumeEngine peer.config threadId (peer.optionsAt run) restore).amid
        (storeHandler order) (Instance.party threadId name run).setting
        (fun result _ past => peer.Ends threadId run past result) store [] :=
    fun direct restore restores => amid_resumeEngine named reads idle
      ⟨restores, fun now ticks => absurd ticks (direct now)⟩
  unfold Instance.program
  cases invoked : peer.invocation with
  | execute input => exact absurd invoked (restoring input)
  | resume =>
    exact resumes (by rw [invoked]; rintro now ⟨⟩) _ (by rw [invoked]; rfl)
  | retry => exact resumes (by rw [invoked]; rintro now ⟨⟩) _ (by rw [invoked]; rfl)
  | resolveAwakeable =>
    exact resumes (by rw [invoked]; rintro now ⟨⟩) _ (by rw [invoked]; rfl)
  | tick =>
    refine ⟨idle.kept, ?_⟩
    intro later relied _
    refine ⟨Grown.refl _, amid_tickFrom named invoked ?_
      ⟨_, _, List.mem_append_right _ List.mem_cons_self⟩ (idle.read relied _ _ _)⟩
    intro action member
    rw [List.nil_append, List.mem_singleton] at member
    exact ⟨_, _, _, member⟩

end Peers

/-- The thread is one line, whose end every read returns, and of the peers that
restored the same checkpoint at most one has stored another.  One that has ended and
stored nothing was overtaken, met a fault of its own run, or was refused. -/
structure OneLine (threadId space : String) (base : Nat)
    (peers : Nat → Instance)
    (pool : Pool storeInterface Obs Fault Unit CheckpointStore Nat) : Prop where
  chained : Chained (pool.store.heads threadId space)
  latest : (pool.store.latest threadId space).map CheckpointTuple.checkpoint =
    (pool.store.heads threadId space).getLast?
  started : ∀ peer, storedBy (pool.trace peer) ≠ [] →
    ∃ tuple, startOf (pool.trace peer) = some tuple
  single : ∀ one two first second,
    startOf (pool.trace one) = some first →
    startOf (pool.trace two) = some second →
    first.checkpoint.id = second.checkpoint.id →
    storedBy (pool.trace one) ≠ [] → storedBy (pool.trace two) ≠ [] → one = two
  overtaken : ∀ peer tuple, startOf (pool.trace peer) = some tuple →
    storedBy (pool.trace peer) = [] → (pool.rest peer).ended = true →
    ∃ fault, lastTold (pool.trace peer) = some (emitError threadId fault) ∧
      (fault.code = .checkpointVersionConflict ∨
        (peers peer).Meets threadId (base + peer) (pool.trace peer) tuple fault)
  declined : ∀ peer result, startOf (pool.trace peer) = none →
    (pool.rest peer).outcome = some result →
      storedBy (pool.trace peer) = [] ∧
        (peers peer).Declines threadId (base + peer) (pool.trace peer) result

section Line

variable {order : RowOrder} {threadId name : String} {base : Nat}
variable {peers : Nat → Instance} {store : CheckpointStore}

theorem sharing_one_line (named : ∀ peer, (peers peer).config.name = name)
    (restoring : ∀ peer input, (peers peer).invocation ≠ .execute input)
    (chained : Chained (store.heads threadId ("workflow/" ++ name)))
    (drawn : store.Every fun checkpoint _ => checkpoint.id.run < base)
    (schedule : List Nat) : OneLine threadId ("workflow/" ++ name) base peers
      ((sharing threadId base peers store).play (storeHandler order) schedule) := by
  let party : Nat → Party := fun peer =>
    Instance.party threadId name (base + peer)
  let posts : Nat → Except Fault Unit → CheckpointStore → Trace → Prop :=
    fun peer result _ past => (peers peer).Ends threadId (base + peer) past result
  have opened : (sharing threadId base peers store).Sound (storeHandler order)
      (fun peer => (party peer).setting) posts := by
    intro peer
    refine Instance.starts (named peer) (restoring peer)
      ⟨chained, rfl, by rintro ⟨_, ⟨⟩, _⟩, ?_⟩
    intro tuple member
    have older := drawn tuple member
    show tuple.checkpoint.id.run ≠ base + peer
    omega
  have apart : ∀ one other : Nat, one ≠ other → ∀ store later,
      (party one).setting.guarantee store later →
        (party other).setting.rely store later := by
    intro one other distinct store later guaranteed
    refine Grown.mono guaranteed ?_
    rintro run rfl
    show base + one ≠ base + other
    omega
  have free : (sharing threadId base peers store).Admitted (storeHandler order)
      (fun _ _ => True) schedule := Pool.admitted_always _ _
  have sound : ((sharing threadId base peers store).play (storeHandler order)
      schedule).Sound (storeHandler order)
        (fun peer => (party peer).setting) posts :=
    Pool.Sound.play apart (fun _ _ _ _ _ _ => id) (fun _ _ _ => id) opened free
  generalize (sharing threadId base peers store).play (storeHandler order)
    schedule = pool at sound ⊢
  have kept : ∀ peer, (party peer).Kept pool.store (pool.trace peer) :=
    fun peer => Program.amid_during (sound peer)
  have line : Chained (pool.store.heads threadId ("workflow/" ++ name)) :=
    (kept 0).chained
  have first : ∀ peer, storedBy (pool.trace peer) ≠ [] →
      ∃ checkpoint ∈ pool.store.heads threadId ("workflow/" ++ name),
        checkpoint.id.run = base + peer ∧ ∃ tuple,
          startOf (pool.trace peer) = some tuple ∧
            checkpoint.parentId = some tuple.checkpoint.id := by
    intro peer stored
    cases listed : storedBy (pool.trace peer) with
    | nil => exact absurd listed stored
    | cons checkpoint =>
      obtain ⟨member, own⟩ := (kept peer).own checkpoint (by simp [listed])
      have origin := (kept peer).first checkpoint (by simp [listed])
      obtain ⟨tuple, started, parent⟩ := Option.map_eq_some_iff.mp origin
      exact ⟨checkpoint, member, own, tuple, started, parent.symm⟩
  refine ⟨line, latest_chained line, ?_, ?_, ?_, ?_⟩
  · intro peer stored
    obtain ⟨_, _, _, tuple, started, _⟩ := first peer stored
    exact ⟨tuple, started⟩
  · intro one two oneTuple twoTuple oneStarted twoStarted same oneStored
      twoStored
    obtain ⟨left, leftListed, leftRun, _, leftStarted, leftParent⟩ :=
      first one oneStored
    obtain ⟨right, rightListed, rightRun, _, rightStarted, rightParent⟩ :=
      first two twoStored
    cases oneStarted.symm.trans leftStarted
    cases twoStarted.symm.trans rightStarted
    have siblings : left = right := by
      apply line.only_child leftListed rightListed
      rw [leftParent, rightParent, same]
    rw [siblings, rightRun] at leftRun
    omega
  · intro peer tuple started bare ended
    obtain ⟨result, ends⟩ := Program.amid_ended (sound peer) ended
    exact ends.overtaken tuple started bare
  · intro peer result unstarted ended
    refine ⟨?_, (Program.amid_outcome (sound peer) ended).declined unstarted⟩
    by_contra stored
    obtain ⟨_, _, _, tuple, started, _⟩ := first peer stored
    cases unstarted.symm.trans started

end Line

/-! One invocation after the other: a thread that no `execute` found in use is
one line to begin with. -/

theorem heads_acts (args : DriveRunArgs) (store : CheckpointStore)
    (acts : List Act) (threadId space : String) :
    (actsStore args store acts).heads threadId space =
      store.heads threadId space := by
  induction acts generalizing store with
  | nil => rfl
  | cons act _ ih =>
    rw [actsStore_cons, ih]
    cases act with
    | tell => rfl
    | journal =>
      exact store.heads_addWrites _ _ _ _ _ _ _

theorem heads_putAll (args : DriveRunArgs) (checkpointId : Id)
    (groups : Record TaskId (List ChannelWrite)) (store : CheckpointStore)
    (threadId space : String) :
    (store.putAll args checkpointId groups).heads threadId space =
      store.heads threadId space := by
  rw [putAll_eq]
  apply CheckpointStore.heads_map
  intro tuple
  split <;> rfl

structure AtTip (args : DriveRunArgs) (internal : RunInternalState)
    (store : CheckpointStore) : Prop where
  chained : Chained (store.heads args.threadId (namespaceFor args.config))
  alone : internal.parentCheckpointId = none →
    store.heads args.threadId (namespaceFor args.config) = []
  seated : Seated args internal store

section Tip

variable {order : RowOrder} {args : DriveRunArgs}
variable {internal next : RunInternalState} {store : CheckpointStore}
variable {past : List Obs}

theorem AtTip.acts (tip : AtTip args internal store) (acts : List Act) :
    AtTip args internal (actsStore args store acts) := by
  refine ⟨?_, ?_, tip.seated.acts acts⟩
  · rw [heads_acts]
    exact tip.chained
  · rw [heads_acts]
    exact tip.alone

theorem AtTip.onward (tip : AtTip args internal store)
    (run : next.run = internal.run)
    (parent : next.parentCheckpointId = internal.parentCheckpointId)
    (grows : internal.nextId ≤ next.nextId)
    (steps : internal.stepNumber ≤ next.stepNumber) : AtTip args next store :=
  ⟨tip.chained, fun parentless => tip.alone (parent.symm.trans parentless),
    tip.seated.onward run parent grows steps⟩

variable {now : Nat}

theorem AtTip.inserted (tip : AtTip args request.internal store)
    (verdict : persistVerdict args request store = .ok true) :
    Chained ((request.inserted args now store).heads args.threadId
      (namespaceFor args.config)) := by
  have unused : store.Every fun stored _ =>
      stored.id ≠ (request.checkpoint args now).id := tip.seated.unused
  have heads : (request.inserted args now store).heads args.threadId
      (namespaceFor args.config) =
        store.heads args.threadId (namespaceFor args.config) ++
          [request.checkpoint args now] := CheckpointStore.heads_insert unused
  rw [heads]
  apply tip.chained.concat
  · rw [← latest_chained tip.chained]
    cases parent : request.internal.parentCheckpointId with
    | none =>
      rw [latest_chained tip.chained, tip.alone parent]
      exact parent
    | some parentId =>
      obtain ⟨old, found, same⟩ :=
        (persistVerdict_stored verdict).2 parentId parent
      have named : request.internal.parentCheckpointId =
          some old.checkpoint.id := parent.trans (by rw [same])
      rw [found]
      exact ⟨named, tip.seated.ranked old found named⟩
  · intro used
    obtain ⟨checkpoint, member, same⟩ := List.mem_map.mp used
    obtain ⟨tuple, stored, rfl⟩ := CheckpointStore.mem_heads member
    exact unused tuple stored same

theorem AtTip.stored (tip : AtTip args request.internal store)
    (verdict : persistVerdict args request store = .ok true) :
    AtTip args request.advanced (request.storedIn args now store) := by
  refine ⟨?_, by rintro ⟨⟩, tip.seated.stored⟩
  rw [PersistRequest.storedIn, heads_putAll]
  exact tip.inserted verdict

/-- The thread is one line wherever an exit is cut short, and behind it. -/
theorem tip_performExit (tip : AtTip args exit.request.internal store)
    (refused : ∀ error, post (.error (.workflow error)) store past)
    (skipped : exit.request.skips args = true →
      post (.ok (exit.next none)) store (past ++ exit.report none))
    (stored : ∀ final past, AtTip args exit.request.advanced final →
      post (.ok (exit.next (some (exit.request.checkpoint args now).id))) final past) :
    (performExit args now exit).ensures (storeHandler order)
      (fun store _ => Chained (store.heads args.threadId
        (namespaceFor args.config))) post store past := by
  apply ensures_performExit tip.chained
  · exact fun error _ => refused error
  · exact fun verdict => skipped (persistVerdict_skipped verdict).1
  · intro verdict before after split
    rw [heads_putAll]
    exact tip.inserted verdict
  · exact fun verdict => stored _ _ (tip.stored verdict)

theorem tip_driveRound (tip : AtTip args internal store) :
    (driveRound args internal).ensures (storeHandler order)
      (fun store _ => Chained (store.heads args.threadId
        (namespaceFor args.config)))
      (roundPost (fun next store _ => AtTip args next store)
        (fun _ store _ => Chained (store.heads args.threadId
          (namespaceFor args.config)))) store past := by
  have decided := decideRound_decided args internal
  have after : ∀ next final past,
      Chained (final.heads args.threadId (namespaceFor args.config)) →
      (∀ again, next = .loop again → AtTip args again final) →
      (afterStep args (args.env internal.stepsThisInvocation) next).ensures
        (storeHandler order) (fun store _ => Chained (store.heads args.threadId
          (namespaceFor args.config)))
        (roundPost (fun next store _ => AtTip args next store)
          (fun _ store _ => Chained (store.heads args.threadId
            (namespaceFor args.config)))) final past := by
    intro next final past chained again
    cases next with
    | raise => exact chained
    | close => exact chained
    | loop next =>
      have onward := again next rfl
      show Program.ensures _ _ _ (ite _ _ _) _ _
      split
      · have asked : AtTip args (abortExit args next).request.internal final :=
          onward
        apply tip_performExit asked
        · exact fun error => chained
        · exact fun _ => chained
        · exact fun final past tip => tip.chained
      · exact onward
  apply ensures_driveRound
  · intro before rest split
    exact (tip.acts before).chained
  · intro fault finished
    exact (tip.acts _).chained
  · intro exit finished
    obtain ⟨parent, run, steps⟩ := decided.parent finished
    have asked := (tip.acts (decideRound args internal).acts).onward run parent
      (decided.drawn finished) (Nat.le_of_eq steps.symm)
    apply tip_performExit asked
    · exact fun error => asked.chained
    · intro skips
      obtain ⟨merged, rfl⟩ := decided.skipped finished skips
      refine after _ _ _ asked.chained ?_
      rintro again ⟨⟩
      exact asked.onward rfl rfl (Nat.le_succ _) (Nat.le_succ _)
    · intro final past tip
      refine after _ _ _ tip.chained ?_
      intro again loops
      obtain ⟨merged, rfl⟩ := decided.running finished
        (decided.onward finished loops).1
      cases loops
      exact tip.onward rfl rfl (Nat.le_refl _) (Nat.le_refl _)

theorem tip_driveReporting (tip : AtTip args internal store)
    (first : internal.stepsThisInvocation = 0) :
    (driveReporting args internal).ensures (storeHandler order)
      (fun store _ => Chained (store.heads args.threadId
        (namespaceFor args.config)))
      (fun _ store _ => Chained (store.heads args.threadId
        (namespaceFor args.config))) store past := by
  apply ensures_driveReporting
  refine Program.ensures_mono ?_ (ensures_driveRun
    (fun internal store past tip => tip_driveRound tip) tip first)
  intro result store past chained
  cases result with
  | ok => exact chained
  | error => exact chained

end Tip

/-- Calls of `execute` find the thread unused. -/
def StartsUnused (config : WorkflowConfig) (threadId : String)
    (thread : Thread) (call : Call) : Prop :=
  ∀ input, call.invocation = .execute input →
    thread.store.heads threadId (namespaceFor config) = []

theorem Reaches.chained
    (reached : Reaches config threadId order (StartsUnused config threadId) thread) :
    Chained (thread.store.heads threadId (namespaceFor config)) := by
  induction reached with
  | unused => exact lineage_nil
  | @call thread earlier call admitted chained =>
    refine @Call.play_of_ensures _ _ _ _ _ _ (fun store _ =>
      Chained (store.heads threadId (namespaceFor config))) ?_
    apply ensures_invocation
    · exact chained
    · exact fun _ => chained
    · intro input invoked
      obtain ⟨seated, first⟩ := @Opens.seated config threadId order thread
        call.options _ _ _ earlier (.execute input)
      exact @tip_driveReporting order
        (driveArgs config threadId (call.optionsAt thread.log.length)) _ _ _
        ⟨chained, fun _ => admitted input invoked, seated⟩ first
    · intro restore tuple internal restores latest restored
      obtain ⟨seated, first⟩ := @Opens.seated config threadId order thread
        call.options _ _ _ earlier (.restore restores latest restored)
      refine @tip_driveReporting order
        (driveArgs config threadId (call.optionsAt thread.log.length)) _ _ _
        ⟨chained, ?_, seated⟩ first
      rw [(restoreRun_at restored).parent]
      rintro ⟨⟩

/-! The gated workflow again, suspended by its first run; then one call that
resumes it and one that names an awakeable nobody waits for. -/

def heldStore : CheckpointStore :=
  (Thread.unused.step heldConfig "t" .inserted
    { invocation := .execute [], options := { run := 0 } }).store

def heldPeers : Nat → Instance
  | 0 => ⟨heldConfig, .resume {}, { run := 0 }⟩
  | _ => ⟨heldConfig, .resolveAwakeable "x" .null, { run := 0 }⟩

def heldSchedule : List Nat := [1, 1, 0, 0, 0, 0, 0, 0, 0, 0]

theorem heldStore_chained :
    Chained (heldStore.heads "t" (namespaceFor heldConfig)) :=
  Reaches.chained (.call .unused _ fun _ _ => rfl)

theorem heldStore_drawn :
    heldStore.Every fun checkpoint _ => checkpoint.id.run < 1 := by
  unfold CheckpointStore.Every
  decide

/-- What an invocation read first. -/
def firstRead : Trace → Option CheckpointTuple
  | [] => none
  | .called (.getTuple _ _) answer :: _ => answer
  | _ :: rest => firstRead rest

theorem refused_peer_without_conflict :
    ¬ ∀ (peers : Nat → Instance) (threadId name : String) (order : RowOrder)
      (store : CheckpointStore) (base : Nat),
      (∀ peer, (peers peer).config.name = name ∧
        validateConfig (peers peer).config = .ok ()) →
      (∀ peer input, (peers peer).invocation ≠ .execute input) →
      Chained (store.heads threadId ("workflow/" ++ name)) →
      (store.Every fun checkpoint _ => checkpoint.id.run < base) →
      ∀ schedule winner loser,
        let pool := (sharing threadId base peers store).play
          (storeHandler order) schedule
        winner ≠ loser →
        firstRead (pool.trace winner) = firstRead (pool.trace loser) →
        (firstRead (pool.trace winner)).isSome = true →
        storedBy (pool.trace winner) ≠ [] →
        (pool.rest loser).ended = true →
        ∃ fault, lastTold (pool.trace loser) = some (emitError threadId fault) ∧
          fault.code = .checkpointVersionConflict := by
  intro always
  have valid : ∀ peer, (heldPeers peer).config.name = "held" ∧
      validateConfig (heldPeers peer).config = .ok () := by
    intro peer
    cases peer with
    | zero => exact ⟨rfl, held.valid⟩
    | succ => exact ⟨rfl, held.valid⟩
  have restoring : ∀ peer input,
      (heldPeers peer).invocation ≠ .execute input := by
    intro peer input
    cases peer <;> rintro ⟨⟩
  obtain ⟨fault, told, conflict⟩ := always heldPeers "t" "held" .inserted
    heldStore 1 valid restoring heldStore_chained heldStore_drawn heldSchedule
    0 1 (by decide) (by decide) (by decide) (by decide) (by decide)
  have found : lastTold (((sharing "t" 1 heldPeers heldStore).play
      (storeHandler .inserted) heldSchedule).trace 1) =
        some (emitError "t" (.workflow (.pauseNotFound "t" "x"))) := rfl
  rw [found] at told
  simp only [emitError, Option.some.injEq, Obs.event.injEq,
    WorkflowEvent.error.injEq, conflict] at told
  exact absurd told.2.2 (by decide)

theorem held_one_line : OneLine "t" ("workflow/" ++ "held") 1 heldPeers
      ((sharing "t" 1 heldPeers heldStore).play (storeHandler .inserted)
        heldSchedule) := by
  refine sharing_one_line ?_ ?_ heldStore_chained heldStore_drawn _
  · intro peer
    cases peer <;> rfl
  · intro peer input
    cases peer <;> rintro ⟨⟩

end Graphorin.Workflow
