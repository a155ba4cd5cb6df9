import Graphorin.Tools.Batch

namespace Graphorin.Tools

open Graphorin.Agent (ToolCall)

/-! Every call of a batch is started once, and never too many are running. -/

variable {δ ε : Type} {config : BatchConfig ε}

namespace Stage

def isWaiting : Stage δ ε → Bool
  | .waiting => true
  | _ => false

def isDone : Stage δ ε → Bool
  | .done _ => true
  | _ => false

variable {stage : Stage δ ε}

theorem counted_of_running (running : stage.isRunning = true) :
    stage.counted = true := by
  cases stage <;> first | rfl | cases running

theorem not_counted_of_done (done : stage.isDone = true) :
    stage.counted = false := by
  cases stage <;> first | rfl | cases done

end Stage

theorem countP_update_of_mem {index : Nat} {old new : Stage δ ε}
    {stage : Nat → Stage δ ε} {places : List Nat} {test : Stage δ ε → Bool}
    (distinct : places.Nodup) (member : index ∈ places) (here : stage index = old)
    (before : test old = true) (after : test new = false) :
    places.countP (fun place => test (Function.update stage index new place)) + 1 =
      places.countP fun place => test (stage place) := by
  induction places with
  | nil => cases member
  | cons head rest ih =>
    rw [List.nodup_cons] at distinct
    rw [List.countP_cons, List.countP_cons]
    rcases List.mem_cons.mp member with rfl | later
    · have others : rest.countP (fun place =>
          test (Function.update stage index new place)) =
          rest.countP fun place => test (stage place) := by
        refine List.countP_congr fun place listed => ?_
        rw [Function.update_of_ne]
        rintro rfl
        exact distinct.1 listed
      rw [others, Function.update_self, after, here, before]
      simp
    · have apart : head ≠ index := by
        rintro rfl
        exact distinct.1 later
      rw [Function.update_of_ne apart, ← ih distinct.2 later]
      omega

namespace Batch

/-- How many `executeOne` promises are pending. -/
def running (batch : Batch δ ε) : Nat :=
  batch.started.countP fun index => (batch.stage index).isRunning

structure Pumped (config : BatchConfig ε) (queue : List Nat) (before after : Batch δ ε)
    (fresh : List Nat) : Prop where
  taken : queue = fresh ++ after.queue
  started : after.started = before.started ++ fresh
  counter : after.inFlight = before.inFlight + fresh.length
  running : ∀ index ∈ fresh, after.stage index = .running
  others : ∀ index, index ∉ fresh → after.stage index = before.stage index
  results : after.results = before.results
  sequential : after.sequential = before.sequential
  pumping : after.pumping = before.pumping
  resolved : after.resolved = before.resolved
  full : after.queue ≠ [] → config.limit.admits after.inFlight = false
  below : fresh ≠ [] → config.limit.admits (after.inFlight - 1) = true

theorem pump_pumped {queue : List Nat} {batch : Batch δ ε} (distinct : queue.Nodup) :
    ∃ fresh, Pumped config queue batch (pump config queue batch) fresh := by
  induction queue generalizing batch with
  | nil =>
    refine ⟨[], rfl, by simp [pump], rfl, by simp, fun _ _ => rfl, rfl, rfl, rfl, rfl,
      ?_, by simp⟩
    exact fun left => absurd rfl left
  | cons head rest ih =>
    rw [List.nodup_cons] at distinct
    rw [pump]
    split
    · rename_i admitted
      obtain ⟨fresh, pumped⟩ := @ih
        { batch.start head with inFlight := batch.inFlight + 1 } distinct.2
      have absent : head ∉ fresh := fun listed => by
        refine distinct.1 ?_
        rw [pumped.taken]
        exact List.mem_append_left _ listed
      refine ⟨head :: fresh, ?_⟩
      constructor
      · rw [List.cons_append, ← pumped.taken]
      · rw [pumped.started]
        simp [start, setStage]
      · rw [pumped.counter, List.length_cons]
        dsimp only
        omega
      · intro index listed
        rcases List.mem_cons.mp listed with rfl | later
        · rw [pumped.others _ absent]
          exact Function.update_self ..
        · exact pumped.running index later
      · intro index unlisted
        rw [List.mem_cons, not_or] at unlisted
        rw [pumped.others index unlisted.2]
        exact Function.update_of_ne unlisted.1 ..
      · exact pumped.results
      · exact pumped.sequential
      · exact pumped.pumping
      · exact pumped.resolved
      · exact pumped.full
      · intro _
        by_cases more : fresh = []
        · rw [pumped.counter, more]
          exact admitted
        · exact pumped.below more
    · rename_i refused
      refine ⟨[], rfl, by simp, rfl, by simp, fun _ _ => rfl, rfl, rfl, rfl, rfl, ?_,
        by simp⟩
      exact fun _ => Bool.eq_false_iff.mpr refused

/-- The sequential loop awaits the call at `current`. -/
structure Serial (config : BatchConfig ε) (batch : Batch δ ε) (before : List Nat)
    (current : Nat) : Prop where
  order : before ++ current :: batch.sequential = config.sequentialCalls
  started : batch.started = before ++ [current]
  queue : batch.queue = []
  counter : batch.inFlight = 0
  pumping : batch.pumping = false
  resolved : batch.resolved = false
  waiting : ∀ index, index ∉ batch.started → batch.stage index = .waiting
  earlier : ∀ index ∈ before, (batch.stage index).isDone = true
  active : batch.stage current = .running ∨
    ∃ answer, batch.stage current = .settled answer

/-- The sequential calls are done, and `inFlight` counts the rest. -/
structure Counted (config : BatchConfig ε) (batch : Batch δ ε) : Prop where
  order : ∃ taken, batch.started = config.sequentialCalls ++ taken ∧
    taken ++ batch.queue = config.parallelCalls ∧
      (taken ≠ [] → config.limit.admits 0 = true)
  sequential : batch.sequential = []
  pumping : batch.pumping = true
  waiting : ∀ index, index ∉ batch.started → batch.stage index = .waiting
  begun : ∀ index ∈ batch.started, (batch.stage index).isWaiting = false
  serial : ∀ index ∈ config.sequentialCalls, (batch.stage index).isDone = true
  counter : batch.inFlight = batch.started.countP fun index =>
    (batch.stage index).counted
  bound : 0 < batch.inFlight → config.limit.admits (batch.inFlight - 1) = true

structure Parallel (config : BatchConfig ε) (batch : Batch δ ε) : Prop
    extends Counted config batch where
  resolution : batch.resolved = true ↔ batch.queue = [] ∧ batch.inFlight = 0
  full : batch.queue ≠ [] → config.limit.admits batch.inFlight = false

end Batch

variable {index : Nat}

theorem mem_sequentialCalls : index ∈ config.sequentialCalls ↔
    index < config.calls.length ∧ config.sequentialAt index = true := by
  rw [BatchConfig.sequentialCalls, List.mem_filter, List.mem_range]

theorem mem_parallelCalls : index ∈ config.parallelCalls ↔
    index < config.calls.length ∧ config.sequentialAt index = false := by
  rw [BatchConfig.parallelCalls, List.mem_filter, List.mem_range, Bool.not_eq_true']

theorem calls_partition : (config.sequentialCalls ++ config.parallelCalls).Perm
    (List.range config.calls.length) :=
  List.filter_append_perm _ _

theorem partition_nodup : (config.sequentialCalls ++ config.parallelCalls).Nodup :=
  calls_partition.nodup_iff.mpr List.nodup_range

namespace Batch

variable {batch : Batch δ ε}

theorem Counted.nodup (counted : Counted config batch) :
    (batch.started ++ batch.queue).Nodup := by
  obtain ⟨taken, started, queued, -⟩ := counted.order
  rw [started, List.append_assoc, queued]
  exact partition_nodup

theorem Counted.tickle (counted : Counted config batch) (pending : batch.resolved = false) :
    Parallel config (batch.tickle config) := by
  have distinct := List.nodup_append.mp counted.nodup
  obtain ⟨fresh, pumped⟩ := @pump_pumped δ ε config batch.queue batch distinct.2.1
  have unstarted : ∀ index ∈ fresh, index ∉ batch.started := by
    intro index listed started
    refine distinct.2.2 index started index ?_ rfl
    rw [pumped.taken]
    exact List.mem_append_left _ listed
  have kept : Counted config (pump config batch.queue batch) := by
    constructor
    · obtain ⟨taken, started, queued, opened⟩ := counted.order
      refine ⟨taken ++ fresh, ?_, ?_, ?_⟩
      · rw [pumped.started, started, List.append_assoc]
      · rw [List.append_assoc, ← pumped.taken, queued]
      · intro some
        by_cases none : fresh = []
        · exact opened (by simpa [none] using some)
        · exact Js.Number.admits_mono (Nat.zero_le _) (pumped.below none)
    · rw [pumped.sequential, counted.sequential]
    · rw [pumped.pumping, counted.pumping]
    · intro index absent
      rw [pumped.started, List.mem_append, not_or] at absent
      rw [pumped.others index absent.2]
      exact counted.waiting index absent.1
    · intro index listed
      rw [pumped.started] at listed
      by_cases new : index ∈ fresh
      · rw [pumped.running index new]
        rfl
      · rw [pumped.others index new]
        exact counted.begun index ((List.mem_append.mp listed).resolve_right new)
    · intro index listed
      rw [pumped.others]
      · exact counted.serial index listed
      · intro new
        obtain ⟨taken, started, -, -⟩ := counted.order
        refine unstarted index new ?_
        rw [started]
        exact List.mem_append_left _ listed
    · have earlier : batch.started.countP (fun index =>
          ((pump config batch.queue batch).stage index).counted) =
          batch.started.countP fun index => (batch.stage index).counted :=
        List.countP_congr fun index listed => by
          rw [pumped.others index fun new => unstarted index new listed]
      have new : fresh.countP (fun index =>
          ((pump config batch.queue batch).stage index).counted) = fresh.length :=
        List.countP_eq_length.mpr fun index listed => by
          rw [pumped.running index listed]
          rfl
      rw [pumped.counter, pumped.started, List.countP_append, earlier, new,
        counted.counter]
    · intro positive
      by_cases none : fresh = []
      · rw [pumped.counter, none] at positive ⊢
        exact counted.bound positive
      · exact pumped.below none
  unfold Batch.tickle
  dsimp only
  split
  · rename_i finished
    exact ⟨⟨kept.order, kept.sequential, kept.pumping, kept.waiting, kept.begun,
      kept.serial, kept.counter, kept.bound⟩, iff_of_true rfl finished, pumped.full⟩
  · rename_i unfinished
    refine ⟨kept, iff_of_false ?_ unfinished, pumped.full⟩
    rw [pumped.resolved, pending]
    exact Bool.false_ne_true

def Sound (config : BatchConfig ε) (batch : Batch δ ε) : Prop :=
  (∃ before current, Serial config batch before current) ∨ Parallel config batch

@[simp] theorem keep_stage (batch : Batch δ ε) (index : Nat) (answer : Answer δ ε) :
    (batch.keep config index answer).stage = batch.stage := by
  rw [keep]
  split
  · rfl
  · split <;> rfl

theorem keep_same (batch : Batch δ ε) (index : Nat) (answer : Answer δ ε) :
    batch.keep config index answer =
      { batch with results := (batch.keep config index answer).results } := by
  rw [keep]
  split
  · rfl
  · split <;> rfl

theorem Parallel.keep (parallel : Parallel config batch) (index : Nat) (answer : Answer δ ε) :
    Parallel config (batch.keep config index answer) := by
  rw [keep_same]
  exact ⟨⟨parallel.order, parallel.sequential, parallel.pumping, parallel.waiting,
    parallel.begun, parallel.serial, parallel.counter, parallel.bound⟩,
    parallel.resolution, parallel.full⟩

/-- The calls before the loop's turn are done: the next one is started, or the
pump. -/
theorem advance_sound (order : batch.started ++ batch.sequential = config.sequentialCalls)
    (pumping : batch.pumping = false) (resolved : batch.resolved = false)
    (queue : batch.queue = []) (counter : batch.inFlight = 0)
    (waiting : ∀ index, index ∉ batch.started → batch.stage index = .waiting)
    (earlier : ∀ index ∈ batch.started, (batch.stage index).isDone = true) :
    Sound config (batch.advance config) := by
  rw [advance]
  cases todo : batch.sequential with
  | cons next rest =>
    dsimp only
    rw [todo] at order
    have distinct := partition_nodup.sublist (List.sublist_append_left
      config.sequentialCalls config.parallelCalls)
    rw [← order, List.nodup_append] at distinct
    have other : ∀ index ∈ batch.started, index ≠ next :=
      fun index listed => distinct.2.2 index listed next List.mem_cons_self
    refine .inl ⟨batch.started, next, order, rfl, queue, counter, pumping, resolved,
      ?_, ?_, .inl (Function.update_self ..)⟩
    · intro index absent
      simp only [start, List.mem_append, List.mem_singleton, not_or] at absent
      exact (Function.update_of_ne absent.2 ..).trans (waiting index absent.1)
    · intro index listed
      have same : ({ batch.start next with sequential := rest } : Batch δ ε).stage index =
          batch.stage index := Function.update_of_ne (other index listed) ..
      rw [same]
      exact earlier index listed
  | nil =>
    dsimp only
    rw [todo, List.append_nil] at order
    refine .inr (Counted.tickle ?_ resolved)
    refine ⟨⟨[], ?_, rfl, fun some => absurd rfl some⟩, rfl, rfl, waiting, ?_, ?_, ?_,
      ?_⟩
    · rw [List.append_nil]
      exact order
    · intro index listed
      have done := earlier index listed
      dsimp only
      cases staged : batch.stage index <;> rw [staged] at done <;>
        first | rfl | cases done
    · intro index listed
      exact earlier index (order ▸ listed)
    · refine (List.countP_eq_zero.mpr fun index listed => ?_).symm
      simp [Stage.not_counted_of_done (earlier index listed)]
    · exact fun positive => absurd positive (Nat.lt_irrefl 0)

theorem begin_sound : Sound config (begin config : Batch δ ε) := by
  unfold begin
  dsimp only
  split
  · rename_i none
    have bare : config.sequentialCalls = [] ∧ config.parallelCalls = [] := by
      simp [BatchConfig.sequentialCalls, BatchConfig.parallelCalls, none]
    refine .inr ⟨⟨⟨[], ?_, ?_, fun some => absurd rfl some⟩, bare.1, rfl, fun _ _ => rfl,
      ?_, ?_, rfl, ?_⟩, iff_of_true rfl ⟨rfl, rfl⟩, fun left => absurd rfl left⟩
    · rw [bare.1]
      rfl
    · exact bare.2.symm
    · exact fun _ listed => absurd listed List.not_mem_nil
    · rw [bare.1]
      exact fun _ listed => absurd listed List.not_mem_nil
    · exact fun positive => absurd positive (Nat.lt_irrefl 0)
  · exact advance_sound rfl rfl rfl rfl rfl (fun _ _ => rfl)
      fun _ listed => absurd listed List.not_mem_nil

variable {index : Nat}

variable {stage : Stage δ ε}

theorem Counted.mem_started (counted : Counted config batch)
    (active : (batch.stage index).counted = true) : index ∈ batch.started := by
  by_contra absent
  rw [counted.waiting index absent] at active
  cases active

theorem Counted.waiting_set (counted : Counted config batch)
    (active : (batch.stage index).counted = true) (stage : Stage δ ε)
    (absent : other ∉ batch.started) : (batch.setStage index stage).stage other = .waiting := by
  have apart : other ≠ index := fun same => absent (same ▸ counted.mem_started active)
  exact (Function.update_of_ne apart ..).trans (counted.waiting other absent)

theorem Counted.setStage (counted : Counted config batch)
    (active : (batch.stage index).counted = true) (still : stage.counted = true) :
    Counted config (batch.setStage index stage) := by
  have outside : index ∉ config.sequentialCalls := by
    intro listed
    rw [Stage.not_counted_of_done (counted.serial index listed)] at active
    cases active
  refine ⟨counted.order, counted.sequential, counted.pumping, ?_, ?_, ?_, ?_,
    counted.bound⟩
  · exact fun other absent => counted.waiting_set active _ absent
  · intro other listed
    by_cases same : other = index
    · subst same
      simp only [Batch.setStage, Function.update_self]
      cases stage <;> first | rfl | cases still
    · simp only [Batch.setStage, Function.update_of_ne same]
      exact counted.begun other listed
  · intro other listed
    have apart : other ≠ index := fun same => outside (same ▸ listed)
    simp only [Batch.setStage, Function.update_of_ne apart]
    exact counted.serial other listed
  · refine counted.counter.trans (List.countP_congr fun other listed => ?_)
    by_cases same : other = index
    · subst same
      simp [Batch.setStage, active, still]
    · simp [Batch.setStage, Function.update_of_ne same]

theorem Parallel.setStage (parallel : Parallel config batch)
    (active : (batch.stage index).counted = true) (still : stage.counted = true) :
    Parallel config (batch.setStage index stage) :=
  ⟨parallel.toCounted.setStage active still, parallel.resolution, parallel.full⟩

theorem Counted.release (counted : Counted config batch) {answer : Answer δ ε}
    (here : batch.stage index = .stored answer) :
    0 < batch.inFlight ∧ Counted config
      { batch.setStage index (.done answer) with inFlight := batch.inFlight - 1 } := by
  have active : (batch.stage index).counted = true := by rw [here]; rfl
  have started := counted.mem_started active
  have distinct := (List.nodup_append.mp counted.nodup).1
  have fewer := @countP_update_of_mem δ ε index _ (.done answer) batch.stage
    batch.started Stage.counted distinct started here rfl rfl
  have count := counted.counter
  refine ⟨by omega, counted.order, counted.sequential, counted.pumping, ?_, ?_, ?_, ?_,
    ?_⟩
  · exact fun other absent => counted.waiting_set active _ absent
  · intro other listed
    by_cases same : other = index
    · subst same
      simp [Batch.setStage, Stage.isWaiting]
    · simp only [Batch.setStage, Function.update_of_ne same]
      exact counted.begun other listed
  · intro other listed
    by_cases same : other = index
    · subst same
      simp [Batch.setStage, Stage.isDone]
    · simp only [Batch.setStage, Function.update_of_ne same]
      exact counted.serial other listed
  · dsimp only [Batch.setStage]
    omega
  · intro positive
    dsimp only at positive ⊢
    exact Js.Number.admits_mono (by omega) (counted.bound (by omega))

variable {before : List Nat} {current : Nat}

theorem Serial.own (serial : Serial config batch before current)
    (active : (batch.stage index).counted = true) : index = current := by
  by_contra other
  have unlisted : index ∉ before := by
    intro listed
    rw [Stage.not_counted_of_done (serial.earlier index listed)] at active
    cases active
  have idle := serial.waiting index (by rw [serial.started]; simp [unlisted, other])
  rw [idle] at active
  cases active

theorem Serial.unstored (serial : Serial config batch before current)
    (stored : batch.stage index = .stored answer) : False := by
  obtain rfl := serial.own (by rw [stored]; rfl)
  rcases serial.active with running | ⟨_, settled⟩
  · rw [running] at stored
    cases stored
  · rw [settled] at stored
    cases stored

theorem Serial.waiting_set (serial : Serial config batch before current)
    (stage : Stage δ ε) (absent : index ∉ batch.started) :
    (batch.setStage current stage).stage index = .waiting := by
  have apart : index ≠ current := by
    rintro rfl
    refine absent ?_
    rw [serial.started]
    exact List.mem_append_right _ (List.mem_singleton.mpr rfl)
  exact (Function.update_of_ne apart ..).trans (serial.waiting index absent)

theorem Serial.fresh (serial : Serial config batch before current) (listed : index ∈ before) :
    index ≠ current := by
  have distinct := partition_nodup.sublist (List.sublist_append_left
    config.sequentialCalls config.parallelCalls)
  rw [← serial.order, List.nodup_append] at distinct
  exact distinct.2.2 index listed current List.mem_cons_self

theorem Serial.sequentialAt (serial : Serial config batch before current) :
    config.sequentialAt current = true := by
  refine (mem_sequentialCalls.mp ?_).2
  rw [← serial.order]
  exact List.mem_append_right _ List.mem_cons_self

theorem Counted.parallelAt (counted : Counted config batch)
    (active : (batch.stage index).counted = true) :
    config.sequentialAt index = false := by
  have started := counted.mem_started active
  obtain ⟨taken, same, queued, -⟩ := counted.order
  rw [same] at started
  rcases List.mem_append.mp started with sequential | parallel
  · rw [Stage.not_counted_of_done (counted.serial index sequential)] at active
    cases active
  · refine (mem_parallelCalls.mp ?_).2
    rw [← queued]
    exact List.mem_append_left _ parallel

theorem Serial.settle (serial : Serial config batch before current) (answer : Answer δ ε) :
    Serial config (batch.setStage current (.settled answer)) before current := by
  refine ⟨serial.order, serial.started, serial.queue, serial.counter, serial.pumping,
    serial.resolved, ?_, ?_, .inr ⟨answer, Function.update_self ..⟩⟩
  · exact fun index absent => serial.waiting_set _ absent
  · intro index listed
    simp only [setStage, Function.update_of_ne (serial.fresh listed)]
    exact serial.earlier index listed

theorem Serial.resume (serial : Serial config batch before current) (answer : Answer δ ε) :
    Sound config (((batch.setStage current (.done answer)).keep config current
      answer).advance config) := by
  rw [keep_same]
  refine advance_sound ?_ serial.pumping serial.resolved serial.queue serial.counter ?_ ?_
  · dsimp only [setStage]
    rw [serial.started, List.append_assoc]
    exact serial.order
  · exact fun index absent => serial.waiting_set _ absent
  · intro index listed
    dsimp only [setStage] at listed ⊢
    by_cases same : index = current
    · rw [same, Function.update_self]
      rfl
    · rw [Function.update_of_ne same]
      rw [serial.started] at listed
      exact serial.earlier index ((List.mem_append.mp listed).resolve_right
        fun last => same (List.mem_singleton.mp last))

theorem Parallel.release (parallel : Parallel config batch)
    (here : batch.stage index = .stored answer) :
    Parallel config
      (let released := { batch.setStage index (.done answer) with
        inFlight := batch.inFlight - 1 }
      if released.queue = [] ∧ released.inFlight = 0 then
        { released with resolved := true }
      else released.tickle config) := by
  obtain ⟨positive, counted⟩ := parallel.toCounted.release here
  have pending : batch.resolved = false := by
    rw [← Bool.not_eq_true, parallel.resolution]
    rintro ⟨-, none⟩
    omega
  dsimp only
  split
  · rename_i finished
    exact ⟨⟨counted.order, counted.sequential, counted.pumping, counted.waiting,
      counted.begun, counted.serial, counted.counter, counted.bound⟩,
      iff_of_true rfl finished, fun left => absurd finished.1 left⟩
  · exact counted.tickle pending

theorem Sound.step {batch next : Batch δ ε} {event : Event δ ε}
    (sound : Sound config batch) (stepped : batch.step config event = some next) :
    Sound config next := by
  cases event with
  | settle index answer =>
    rw [Batch.step] at stepped
    split at stepped
    · rename_i running
      cases stepped
      have active : (batch.stage index).counted = true := by rw [running]; rfl
      rcases sound with ⟨before, current, serial⟩ | parallel
      · obtain rfl := serial.own active
        exact .inl ⟨before, index, serial.settle answer⟩
      · exact .inr (parallel.setStage active rfl)
    · cases stepped
  | resume index =>
    rw [Batch.step] at stepped
    split at stepped
    · rename_i answer sequential settled
      cases stepped
      have active : (batch.stage index).counted = true := by rw [settled]; rfl
      rcases sound with ⟨before, current, serial⟩ | parallel
      · obtain rfl := serial.own active
        exact serial.resume answer
      · rw [parallel.parallelAt active] at sequential
        cases sequential
    · cases stepped
  | store index =>
    rw [Batch.step] at stepped
    split at stepped
    · rename_i answer nonsequential settled
      cases stepped
      have active : (batch.stage index).counted = true := by rw [settled]; rfl
      rcases sound with ⟨before, current, serial⟩ | parallel
      · obtain rfl := serial.own active
        rw [serial.sequentialAt] at nonsequential
        cases nonsequential
      · exact .inr ((parallel.setStage active rfl).keep index answer)
    · cases stepped
  | release index =>
    rw [Batch.step] at stepped
    split at stepped
    · rename_i answer stored
      rcases sound with ⟨before, current, serial⟩ | parallel
      · exact (serial.unstored stored).elim
      · have released := parallel.release stored
        dsimp only at released stepped
        split at stepped
        · rename_i finished
          cases stepped
          rw [if_pos finished] at released
          exact .inr released
        · rename_i unfinished
          cases stepped
          rw [if_neg unfinished] at released
          exact .inr released
    · cases stepped

theorem Sound.play (sound : Sound config batch)
    (played : play config events batch = some final) : Sound config final := by
  induction events generalizing batch with
  | nil =>
    cases played
    exact sound
  | cons event rest ih =>
    obtain ⟨next, stepped, later⟩ := Option.bind_eq_some_iff.mp played
    exact ih (sound.step stepped) later

end Batch

end Graphorin.Tools
