import Graphorin.Workflow.Fork
import Graphorin.Workflow.Provenance

namespace Graphorin.Workflow

open Graphorin.Lib
open Graphorin.Js

/-! Every resumed task goes back to a pause that was stored, through every
restore, journal and fork. -/

variable {ground : Ground}

def Raised (log : List (Move × List Obs)) (record : PendingPauseRecord) : Prop :=
  ∃ entry ∈ log, ∃ outcome value, .ran outcome ∈ entry.2 ∧
    Admitted entry.1.config outcome.task ∧ outcome.paused = some value ∧
    record = (pauseRecordOf outcome value).throughJson

theorem Raised.later (raised : Raised log record) (more : List (Move × List Obs)) :
    Raised (log ++ more) record := by
  obtain ⟨entry, member, found⟩ := raised
  exact ⟨entry, List.mem_append_left _ member, found⟩

theorem Raised.onward (raised : Raised (log ++ [(move, past)]) record) (more : List Obs) :
    Raised (log ++ [(move, past ++ more)]) record := by
  obtain ⟨entry, member, outcome, value, ran, rest⟩ := raised
  rcases List.mem_append.mp member with earlier | here
  · exact ⟨entry, List.mem_append_left _ earlier, outcome, value, ran, rest⟩
  · rw [List.mem_singleton.mp here] at ran rest
    exact ⟨_, List.mem_append_right _ List.mem_cons_self, outcome, value,
      List.mem_append_left _ ran, rest⟩

structure Attested (ground : Ground) (log : List (Move × List Obs)) (move : Move)
    (store : CheckpointStore) (past : List Obs) : Prop where
  records : store.Every fun _ metadata =>
    Accounted (Raised (log ++ [(move, past)])) (readFrontier metadata)
  rows : SourcedRows ground store
  seen : ∀ obs ∈ past, obs.Sourced ground move.config

section Invocation

variable {log : List (Move × List Obs)} {move : Move} {store : CheckpointStore}
variable {past : List Obs} {args : DriveRunArgs} {order : RowOrder}

theorem Attested.acts (attested : Attested ground log move store past)
    {acts : List Act} (journals : SourcedActs ground acts)
    (told : ∀ obs ∈ actsObs acts, obs.Sourced ground move.config) :
    Attested ground log move (actsStore args store acts) (past ++ actsObs acts) where
  records := by
    refine (attested.records.acts args acts).mono fun _ metadata accounted => ?_
    exact accounted.mono fun record raised => raised.onward _
  rows := attested.rows.acts args journals
  seen obs member := (List.mem_append.mp member).elim (attested.seen obs) (told obs)

theorem Attested.events (attested : Attested ground log move store past)
    (events : ∀ obs ∈ more, ∃ event, obs = .event event) :
    Attested ground log move store (past ++ more) := by
  refine ⟨attested.records.mono fun _ metadata accounted =>
    accounted.mono fun record raised => raised.onward _, attested.rows, ?_⟩
  intro obs member
  rcases List.mem_append.mp member with earlier | later
  · exact attested.seen obs earlier
  · obtain ⟨event, rfl⟩ := events obs later
    trivial

theorem Attested.inserted (attested : Attested ground log move store past)
    (accounted : AccountedExit ran exit) (seen : ∀ outcome ∈ ran, .ran outcome ∈ past)
    (now : Nat) :
    Attested ground log move (exit.request.inserted args now store) past := by
  refine ⟨attested.records.insert ?_, attested.rows.insert _ _, attested.seen⟩
  have raised : ∀ record, RaisedBy ran record →
      Raised (log ++ [(move, past)]) record.throughJson := by
    rintro record ⟨outcome, member, value, paused, rfl⟩
    have here := seen outcome member
    exact ⟨(move, past), by simp, outcome, value, here, (attested.seen _ here).2,
      paused, rfl⟩
  have frontier := accounted.frontier.mono raised
  show Accounted _ ((exit.request.frontier.map encodeFrontier).getD emptyFrontier)
  cases carried : exit.request.frontier with
  | none => exact accounted_unpaused rfl
  | some =>
    rw [carried] at frontier
    exact frontier.encode

theorem attested_performExit {now : Nat} (attested : Attested ground log move store past)
    (accounted : AccountedExit ran exit) (seen : ∀ outcome ∈ ran, .ran outcome ∈ past)
    (events : ∀ checkpointId, ∀ obs ∈ exit.report checkpointId, ∃ event, obs = .event event) :
    (performExit args now exit).ensures (storeHandler order)
      (Attested ground log move)
      (fun result store past => Attested ground log move store past ∧
        ∀ next, result = .ok (.loop next) → next.pendingPauses = [] ∧
          ∀ task ∈ next.pendingDynamicTasks, task.Sourced ground) store past := by
  have loops : ∀ checkpointId next, (Except.ok (exit.next checkpointId) :
      Except Fault Next) = .ok (.loop next) → next.pendingPauses = [] ∧
        ∀ task ∈ next.pendingDynamicTasks, task.Sourced ground := by
    intro checkpointId next looped
    obtain ⟨unpaused, plain⟩ := accounted.loops checkpointId next (Except.ok.inj looped)
    refine ⟨unpaused, fun task member => ?_⟩
    obtain ⟨source, static⟩ := plain task member
    exact PlannedTask.sourced_of_plain (by simp [source]) static
  have put : Attested ground log move (exit.request.inserted args now store) past :=
    attested.inserted accounted seen now
  apply ensures_performExit attested
  · intro error _
    exact ⟨attested, by rintro _ ⟨⟩⟩
  · intro _
    exact ⟨attested.events (events none), loops none⟩
  · intro _ before after _
    exact ⟨put.records.putAll _ _ _, put.rows.putAll _ _ _, put.seen⟩
  · intro _
    have stored : Attested ground log move (exit.request.storedIn args now store) past :=
      ⟨put.records.putAll _ _ _, put.rows.putAll _ _ _, put.seen⟩
    exact ⟨stored.events (events _), loops _⟩

structure AttestedTop (ground : Ground) (log : List (Move × List Obs)) (move : Move)
    (internal : RunInternalState) (store : CheckpointStore) (past : List Obs) :
    Prop where
  attested : Attested ground log move store past
  unpaused : internal.pendingPauses = []
  pending : ∀ task ∈ internal.pendingDynamicTasks, task.Sourced ground

variable {internal : RunInternalState}

theorem attested_driveRound (own : args.config = move.config)
    (top : AttestedTop ground log move internal store past) :
    (driveRound args internal).ensures (storeHandler order)
      (Attested ground log move) (roundPost (AttestedTop ground log move)
        fun _ => Attested ground log move) store past := by
  obtain ⟨attested, unpaused, pending⟩ := top
  have decided := decideRound_decided args internal
  obtain ⟨journals, told⟩ := decided.sourced pending
  rw [own] at told
  apply ensures_driveRound
  · intro before after split
    rw [split] at journals told
    refine attested.acts (fun act member => journals act (List.mem_append_left _ member))
      fun obs member => told obs ?_
    rw [actsObs_append]
    exact List.mem_append_left _ member
  · exact fun fault _ => attested.acts journals told
  · intro exit finished
    refine Program.ensures_mono ?_ (attested_performExit (attested.acts journals told)
      (decided.accounted unpaused finished) ?_
      fun checkpointId obs member => decided.report_event finished member)
    · rintro result store past ⟨reached, loops⟩
      cases result with
      | error => exact reached
      | ok next =>
        cases next with
        | raise => exact reached
        | close => exact reached
        | loop next =>
          obtain ⟨unpaused, pending⟩ := loops next rfl
          show Program.ensures _ _ _ (ite _ _ _) _ _
          split
          · have idle : AccountedExit [] (abortExit args next) :=
              ⟨accounted_unpaused unpaused, by rintro _ _ ⟨⟩⟩
            refine Program.ensures_mono ?_ (attested_performExit reached idle
              (by simp) (by rintro _ _ ⟨⟩))
            rintro result store past ⟨reached, loops⟩
            match result with
            | .error fault => exact reached
            | .ok (.raise fault) => exact reached
            | .ok .close => exact reached
            | .ok (.loop next) =>
              obtain ⟨unpaused, pending⟩ := loops next rfl
              exact ⟨reached, unpaused, pending⟩
          · exact ⟨reached, unpaused, pending⟩
    · intro outcome member
      exact List.mem_append_right _ (mem_executions.mp member)

theorem attested_driveReporting (own : args.config = move.config)
    (top : AttestedTop ground log move internal store past)
    (first : internal.stepsThisInvocation = 0) :
    (driveReporting args internal).ensures (storeHandler order)
      (Attested ground log move) (fun _ => Attested ground log move) store past := by
  apply ensures_driveReporting
  have drives : (driveRun args internal).ensures (storeHandler order)
      (Attested ground log move) (fun _ => Attested ground log move) store past :=
    ensures_driveRun (fun internal store past top => attested_driveRound own top) top
      first
  refine Program.ensures_mono ?_ drives
  intro result store past reached
  cases result with
  | ok => exact reached
  | error =>
    refine reached.events fun obs member => ?_
    rw [List.mem_singleton.mp member]
    exact ⟨_, rfl⟩

def Grounds (ground : Ground) (log : List (Move × List Obs)) (store : CheckpointStore) :
    Prop :=
  ∀ tuple ∈ store, ∀ record ∈ (readFrontier tuple.metadata).pauses,
    record.staticBefore = true ∨ Raised log record →
    ∀ answers, (record.staticBefore = false → record.satisfied <+: answers) →
      ground record.nodeName record.staticBefore answers

variable {tuple : CheckpointTuple}

theorem rerunStepTask_sourced (stored : tuple ∈ store) (grounds : Grounds ground log store)
    (raised : ∀ record ∈ (readFrontier tuple.metadata).pauses, Raised log record) (id : Id)
    (task : StepTask) :
    (rerunStepTask (readFrontier tuple.metadata) id task).Sourced ground := by
  unfold rerunStepTask
  split
  · rename_i record found
    split at found
    · have listed := List.mem_of_getLast? found
      obtain ⟨member, same⟩ := List.mem_filter.mp listed
      have named : record.nodeName = task.nodeName := by simpa using same
      refine ⟨fun _ => rfl, fun _ => ?_⟩
      rw [← named]
      refine grounds tuple stored record member (.inr (raised record member)) _ ?_
      intro plain
      simp [PlannedTask.answers, plain]
    · cases found
  · exact PlannedTask.sourced_of_plain (by simp) rfl

theorem rerunIntentTask_sourced (sourced : task.Sourced ground) (id : Id) :
    (rerunIntentTask id task).Sourced ground := by
  obtain ⟨static, resumed⟩ := sourced
  constructor
  · intro approved
    simp [rerunIntentTask, static approved]
  · intro again
    refine resumed ?_
    by_contra other
    simp [rerunIntentTask, other] at again

variable {run : Nat}

theorem readStepJournal_sourced (sourced : ∀ row ∈ rows, row.value.Sourced ground)
    (found : readStepJournal run rows step = some journal) :
    ∀ task ∈ journal.rerunTasks, task.Sourced ground := by
  unfold readStepJournal stepIntent? at found
  split at found
  · cases found
  · rename_i stepNumber tasks read
    split at found
    · cases found
    · cases found
      split at read
      · rename_i taskId index channel number intents first
        cases read
        intro task member
        obtain ⟨entry, listed, rfl⟩ := List.mem_map.mp member
        have inIntent := (List.mem_filter.mp (List.fst_mem_of_mem_zipIdx listed)).1
        exact rerunIntentTask_sourced
          (sourced _ (List.mem_of_find?_eq_some first) _ inIntent) _
      · cases read

theorem mem_fanTasks (member : task ∈ fanTasks run seq entries) :
    ∃ id record fresh, (record, fresh) ∈ entries ∧ record.staticAfter = false ∧
      task = resumeTask id record fresh := by
  induction entries generalizing seq with
  | nil => cases member
  | cons entry rest ih =>
    obtain ⟨record, fresh⟩ := entry
    unfold fanTasks at member
    split at member
    · obtain ⟨id, other, value, listed, found⟩ := ih member
      exact ⟨id, other, value, List.mem_cons_of_mem _ listed, found⟩
    · rename_i onward
      rcases List.mem_cons.mp member with rfl | later
      · exact ⟨_, record, fresh, List.mem_cons_self, by simpa using onward, rfl⟩
      · obtain ⟨id, other, value, listed, found⟩ := ih later
        exact ⟨id, other, value, List.mem_cons_of_mem _ listed, found⟩

theorem resumeTask_sourced (stored : tuple ∈ store) (grounds : Grounds ground log store)
    (member : record ∈ (readFrontier tuple.metadata).pauses)
    (known : record.staticBefore = true ∨ Raised log record) (id : Id)
    (fresh : Option JsValue) : (resumeTask id record fresh).Sourced ground := by
  refine ⟨fun _ => rfl, fun _ => ?_⟩
  refine grounds tuple stored record member known _ fun plain => ?_
  simp [PlannedTask.answers, resumeTask, plain]

/-- What an invocation restores has grounds, on whichever path. -/
theorem restored_sourced (stored : tuple ∈ store) (grounds : Grounds ground log store)
    (accounted : Accounted (Raised log) (readFrontier tuple.metadata))
    (rows : SourcedRows ground store)
    (restores : restoreRun config options (order.read tuple) = .ok internal) :
    ∀ task ∈ internal.pendingDynamicTasks, task.Sourced ground := by
  obtain ⟨-, restored, shape, -, updates⟩ := restoreRun_ok restores
  obtain ⟨_, _, rfl⟩ := applyUpdate_ok updates
  cases shape with
  | failedStep replayed status tasks =>
    intro task member
    obtain ⟨entry, -, rfl⟩ := List.mem_map.mp member
    exact rerunStepTask_sourced stored grounds (accounted.failed tasks) _ _
  | journal journal replayed status journals found =>
    refine readStepJournal_sourced (fun row member => ?_) found
    exact rows tuple stored row (order.mem_arrange.mp member)
  | goto =>
    intro task member
    rw [List.mem_singleton.mp member]
    exact PlannedTask.sourced_of_plain (by simp [gotoTask]) rfl
  | pauses pauses whole unjournaled onward ordered =>
    intro task member
    change task ∈ (fanOut _ _ _).pendingDynamicTasks at member
    rw [fanOut_pending] at member
    rcases List.mem_append.mp member with dynamic | resumed
    · obtain ⟨entry, -, rfl⟩ := List.mem_map.mp dynamic
      exact PlannedTask.sourced_of_plain (by simp [dynamicTask]) rfl
    · obtain ⟨id, record, fresh, listed, onward, rfl⟩ := mem_fanTasks resumed
      have inPauses : record ∈ (readFrontier tuple.metadata).pauses := by
        refine (orderPauses_perm ordered).mem_iff.mp ?_
        rw [← answered_records options.directive.resume pauses]
        exact List.mem_map_of_mem listed
      have known := (accounted.records record inPauses).resolve_left
        (by simp [onward])
      exact resumeTask_sourced stored grounds inPauses known _ _

theorem attested_play {call : Call} (attested : Attested ground log move store [])
    (accounted : store.Every fun _ metadata => Accounted (Raised log) (readFrontier metadata))
    (grounds : Grounds ground log store) : Attested ground log move
      (call.play move.config move.threadId order run store).2
      (call.play move.config move.threadId order run store).1 := by
  apply Call.play_of_ensures
  have told : ∀ event, Attested ground log move store [.event event] := by
    intro event
    refine attested.events fun obs member => ?_
    exact ⟨event, List.mem_singleton.mp member⟩
  refine ensures_invocation attested (fun error => told _) ?_ ?_
  · intro input _
    refine attested_driveReporting rfl ⟨told _, rfl, ?_⟩ rfl
    intro task member
    cases member
  · intro restore tuple internal _ latest restored
    have stored := (CheckpointStore.latest_mem latest).1
    have place := restoreRun_at restored
    exact attested_driveReporting rfl ⟨told _, place.pauses, restored_sourced stored
      grounds (accounted tuple stored) attested.rows restored⟩ place.steps

end Invocation

def worldAfter (order : RowOrder) (moves : List Move) : World :=
  moves.foldl (World.step order) .unused

theorem worldAfter_concat (order : RowOrder) (moves : List Move) (move : Move) :
    worldAfter order (moves ++ [move]) = (worldAfter order moves).step order move := by
  rw [worldAfter, List.foldl_append]
  rfl

theorem worldAfter_length (order : RowOrder) (moves : List Move) :
    (worldAfter order moves).log.length = moves.length := by
  induction moves using List.reverseRecOn with
  | nil => rfl
  | append_singleton moves move ih =>
    rw [worldAfter_concat, List.length_append, ← ih]
    exact List.length_append

/-- At some moment of the history a pause record of that node stood in the
store: the approval a static gate asked for, or a pause that a task of the
node raised after it had itself been let through. -/
def Descends (order : RowOrder) (moves : List Move) : Ground :=
  fun nodeName staticBefore answers =>
    ∃ k ≤ moves.length, ∃ tuple ∈ (worldAfter order (moves.take k)).store,
      ∃ record ∈ (readFrontier tuple.metadata).pauses,
        record.nodeName = nodeName ∧ record.staticBefore = staticBefore ∧
        (staticBefore = false → record.satisfied <+: answers) ∧
        (staticBefore = true ∨ Raised (worldAfter order (moves.take k)).log record)

theorem Descends.later (descends : Descends order moves nodeName staticBefore answers)
    (move : Move) :
    Descends order (moves ++ [move]) nodeName staticBefore answers := by
  obtain ⟨k, bound, found⟩ := descends
  refine ⟨k, by simp; omega, ?_⟩
  rwa [List.take_append_of_le_length bound]

theorem grounds_descends (order : RowOrder) (moves : List Move) :
    Grounds (Descends order moves) (worldAfter order moves).log
      (worldAfter order moves).store := by
  intro tuple stored record member known answers carries
  refine ⟨moves.length, Nat.le_refl _, tuple, ?_, record, member, rfl, rfl, carries, ?_⟩
  · rwa [List.take_length]
  · rwa [List.take_length]

structure Vouched (order : RowOrder) (moves : List Move) : Prop where
  records : (worldAfter order moves).store.Every fun _ metadata =>
    Accounted (Raised (worldAfter order moves).log) (readFrontier metadata)
  rows : SourcedRows (Descends order moves) (worldAfter order moves).store
  seen : ∀ (i : Nat) (entry : Move × List Obs),
    (worldAfter order moves).log[i]? = some entry →
    ∀ obs ∈ entry.2, obs.Sourced (Descends order (moves.take i)) entry.1.config

theorem Vouched.fork {move : Move} {fork : Fork} {crash : Option Nat}
    (vouched : Vouched order moves) :
    Attested (Descends order moves) (worldAfter order moves).log move
      (fork.play move.config move.threadId order (worldAfter order moves).log.length crash
        (worldAfter order moves).store) [] := by
  have records := vouched.records.mono fun _ metadata accounted =>
    accounted.mono fun record raised => raised.later [(move, [])]
  apply @Fork.play_of move.config move.threadId order _ fork crash _ fun store =>
    Attested (Descends order moves) (worldAfter order moves).log move store []
  · exact ⟨records, vouched.rows, by simp⟩
  · intro tuple state found _
    obtain ⟨stored, -⟩ := CheckpointStore.find_mem found
    exact ⟨records.insert (records tuple stored), vouched.rows.insert _ _, by simp⟩
  · intro tuple found current taskId writes listed attested
    obtain ⟨stored, -⟩ := CheckpointStore.find_mem found
    refine ⟨attested.records.addWrites _ _ _ _ _, attested.rows.addWrites ?_, by simp⟩
    intro write member
    obtain ⟨entry, copied, rfl⟩ := List.mem_map.mp member
    obtain ⟨rfl, -⟩ := mem_groupOn.mp listed
    have inGroup := List.fst_mem_of_mem_zipIdx copied
    exact vouched.rows tuple stored entry.1
      (order.mem_arrange.mp (List.mem_filter.mp inGroup).1)

theorem Vouched.step {order : RowOrder} {moves : List Move} {move : Move}
    (vouched : Vouched order moves) : Vouched order (moves ++ [move]) := by
  have played : Attested (Descends order moves) (worldAfter order moves).log move
      (move.play order (worldAfter order moves).log.length
        (worldAfter order moves).store).2
      (move.play order (worldAfter order moves).log.length
        (worldAfter order moves).store).1 := by
    have opened : Attested (Descends order moves) (worldAfter order moves).log move
        (worldAfter order moves).store [] :=
      ⟨vouched.records.mono fun _ metadata accounted =>
        accounted.mono fun record raised => raised.later [(move, [])], vouched.rows,
        by simp⟩
    unfold Move.play
    cases move.operation with
    | call => exact attested_play opened vouched.records (grounds_descends _ _)
    | fork => exact vouched.fork
  constructor
  · rw [worldAfter_concat]
    exact played.records
  · rw [worldAfter_concat]
    intro tuple stored row member
    exact (played.rows tuple stored row member).mono fun _ _ _ known => known.later move
  · intro i entry logged obs member
    rw [worldAfter_concat] at logged
    change ((worldAfter order moves).log ++ [(move, _)])[i]? = some entry at logged
    have counted := worldAfter_length order moves
    by_cases earlier : i < (worldAfter order moves).log.length
    · rw [List.getElem?_append_left earlier] at logged
      rw [List.take_append_of_le_length (by omega)]
      exact vouched.seen i entry logged obs member
    · have last : i = (worldAfter order moves).log.length := by
        have bound := (List.getElem?_eq_some_iff.mp logged).1
        simp only [List.length_append, List.length_singleton] at bound
        omega
      subst last
      rw [List.getElem?_concat_length] at logged
      cases logged
      rw [counted, List.take_left]
      exact played.seen obs member

theorem vouched (order : RowOrder) (moves : List Move) : Vouched order moves := by
  induction moves using List.reverseRecOn with
  | nil =>
    refine ⟨?_, ?_, ?_⟩
    · intro tuple member
      cases member
    · intro tuple member
      cases member
    · intro i entry logged
      cases logged
  | append_singleton moves move ih => exact ih.step

def Seen (past : List Obs) (task : PlannedTask) : Prop :=
  (∃ outcome, .ran outcome ∈ past ∧ outcome.task = task) ∨
    ∃ internal tasks, .planned internal tasks ∈ past ∧ task ∈ tasks

end Graphorin.Workflow
