import Graphorin.Tools.Delivery

namespace Graphorin.Tools

open Graphorin.Agent (ToolCall)

/-! When a batch keeps to its limit, settles, and answers each call with its own
outcome. -/

variable {δ ε : Type} {config : BatchConfig ε}

namespace Limit

/-- At least one call at a time, and a whole number unless all fit at once. -/
def fits (sequential parallel : Nat) : Limit → Prop
  | .finite value => (0 < sequential → 1 ≤ value) ∧
      (0 < parallel → 0 < value ∧ (value.den = 1 ∨ (parallel : Rat) ≤ value))
  | .infinity => True
  | .nan | .negativeInfinity => sequential = 0 ∧ parallel = 0

variable {limit : Limit}

theorem fits_iff {sequential parallel : Nat} : limit.fits sequential parallel ↔
      (0 < sequential → limit.allows 1 = true) ∧
        (0 < parallel → limit.admits 0 = true) ∧
          ∀ count < parallel, limit.admits count = true →
            limit.allows (count + 1) = true := by
  cases limit with
  | infinity => simp [fits, Js.Number.allows, Js.Number.admits]
  | nan => simp [fits, Js.Number.allows, Js.Number.admits]
  | negativeInfinity => simp [fits, Js.Number.allows, Js.Number.admits]
  | finite value =>
    simp only [fits, Js.Number.allows, Js.Number.admits, decide_eq_true_eq, Nat.cast_one, Nat.cast_zero]
    refine and_congr_right fun _ => ?_
    constructor
    · intro fit
      refine ⟨fun some => (fit some).1, fun count below admitted => ?_⟩
      rcases (fit (Nat.lt_of_le_of_lt (Nat.zero_le _) below)).2 with whole | all
      · rw [← (Rat.den_eq_one_iff value).mp whole] at admitted ⊢
        exact_mod_cast admitted
      · exact le_trans (by exact_mod_cast below) all
    · rintro ⟨positive, exact'⟩ some
      refine ⟨positive some, ?_⟩
      by_contra neither
      rw [not_or, not_le] at neither
      -- The limit is between two whole numbers, and the upper one is reached.
      have whole : ((⌊value⌋.toNat : Nat) : Rat) = (⌊value⌋ : Rat) := by
        exact_mod_cast Int.toNat_of_nonneg (Int.floor_nonneg.mpr (positive some).le)
      have below : ((⌊value⌋.toNat : Nat) : Rat) < value := by
        rw [whole]
        refine lt_of_le_of_ne (Int.floor_le value) fun same => neither.1 ?_
        rw [← same]
        exact Rat.den_intCast _
      have reached := exact' ⌊value⌋.toNat
        (by exact_mod_cast below.trans neither.2) below
      rw [Nat.cast_add, whole, Nat.cast_one] at reached
      exact absurd reached (not_le.mpr (Int.lt_floor_add_one value))

end Limit

namespace Batch

/-- Nothing is pending, and no callback is left to run. -/
def Complete (config : BatchConfig ε) (batch : Batch δ ε) : Prop :=
  ∀ event, batch.step config event = none

variable {batch : Batch δ ε}

variable {next : Batch δ ε} {event : Event δ ε}

theorem counted_of_step (happened : batch.step config event = some next) :
    ∃ index, (batch.stage index).counted = true := by
  cases event with
  | settle index answer =>
    rw [Batch.step] at happened
    split at happened
    · rename_i running
      exact ⟨index, by rw [running]; rfl⟩
    · cases happened
  | resume index =>
    rw [Batch.step] at happened
    split at happened
    · rename_i answer _ settled
      exact ⟨index, by rw [settled]; rfl⟩
    · cases happened
  | store index =>
    rw [Batch.step] at happened
    split at happened
    · rename_i answer _ settled
      exact ⟨index, by rw [settled]; rfl⟩
    · cases happened
  | release index =>
    rw [Batch.step] at happened
    split at happened
    · rename_i answer stored
      exact ⟨index, by rw [stored]; rfl⟩
    · cases happened

theorem complete_of_idle (idle : ∀ index, (batch.stage index).counted = false) :
    Complete config batch := by
  intro event
  by_contra active
  obtain ⟨next, happened⟩ := Option.ne_none_iff_exists'.mp active
  obtain ⟨index, counted⟩ := counted_of_step happened
  rw [idle index] at counted
  cases counted

theorem Sound.running_allowed (sound : Sound config batch)
    (fit : config.limit.fits config.sequentialCalls.length config.parallelCalls.length)
    (positive : 0 < batch.running) : config.limit.allows batch.running = true := by
  obtain ⟨one, -, each⟩ := Limit.fits_iff.mp fit
  rcases sound with ⟨before, current, serial⟩ | parallel
  · have none : before.countP (fun index => (batch.stage index).isRunning) = 0 :=
      List.countP_eq_zero.mpr fun index listed running => by
        have done := Stage.not_counted_of_done (serial.earlier index listed)
        rw [Stage.counted_of_running running] at done
        cases done
    have single : batch.running ≤ 1 := by
      rw [running, serial.started, List.countP_append, none]
      exact Nat.zero_add _ ▸ List.countP_le_length
    refine Js.Number.allows_mono single (one ?_)
    rw [← serial.order, List.length_append, List.length_cons]
    omega
  · have fewer : batch.running ≤ batch.inFlight := by
      rw [parallel.counter, running]
      exact List.countP_mono_left fun index _ => Stage.counted_of_running
    have within : batch.inFlight ≤ config.parallelCalls.length := by
      obtain ⟨taken, started, queued, -⟩ := parallel.order
      have none : config.sequentialCalls.countP
          (fun index => (batch.stage index).counted) = 0 :=
        List.countP_eq_zero.mpr fun index listed => by
          simp [Stage.not_counted_of_done (parallel.serial index listed)]
      rw [parallel.counter, started, List.countP_append, none, ← queued,
        List.length_append]
      have := @List.countP_le_length _ (fun index => (batch.stage index).counted) taken
      omega
    have admitted := parallel.bound (by omega)
    have allowed := each (batch.inFlight - 1) (by omega) admitted
    exact Js.Number.allows_mono (by omega) allowed

theorem Sound.apart (sound : Sound config batch) {first second : Nat}
    (sequential : config.sequentialAt first = true)
    (one : (batch.stage first).isRunning = true)
    (other : (batch.stage second).isRunning = true) : first = second := by
  rcases sound with ⟨before, current, serial⟩ | parallel
  · rw [serial.own (Stage.counted_of_running one),
      serial.own (Stage.counted_of_running other)]
  · rw [parallel.parallelAt (Stage.counted_of_running one)] at sequential
    cases sequential

/-- A batch in which nothing can happen any more has resolved. -/
theorem Sound.resolved (sound : Sound config batch) (complete : Complete config batch)
    (opens : 0 < config.parallelCalls.length → config.limit.admits 0 = true) :
    Parallel config batch ∧ batch.resolved = true := by
  have unanswered : ∀ index, batch.stage index ≠ .running := by
    intro index running
    have blocked := complete (.settle index (.ok (.error
      { toolCallId := "", toolName := "", kind := .aborted, message := "", hint := none })))
    rw [Batch.step, running] at blocked
    cases blocked
  rcases sound with ⟨before, current, serial⟩ | parallel
  · rcases serial.active with running | ⟨answer, settled⟩
    · exact absurd running (unanswered current)
    · have blocked := complete (.resume current)
      rw [Batch.step, serial.sequentialAt, settled] at blocked
      cases blocked
  · refine ⟨parallel, parallel.resolution.mpr ?_⟩
    have idle : ∀ index, (batch.stage index).counted = false := by
      intro index
      cases staged : batch.stage index with
      | waiting => rfl
      | done => rfl
      | running => exact absurd staged (unanswered index)
      | settled =>
        have blocked := complete (.store index)
        rw [Batch.step, parallel.parallelAt (by rw [staged]; rfl), staged] at blocked
        cases blocked
      | stored =>
        have blocked := complete (.release index)
        rw [Batch.step, staged] at blocked
        dsimp only at blocked
        split at blocked <;> cases blocked
    have none : batch.inFlight = 0 := by
      rw [parallel.counter]
      exact List.countP_eq_zero.mpr fun index _ => by simp [idle index]
    refine ⟨?_, none⟩
    by_contra left
    have refused := parallel.full left
    obtain ⟨taken, -, queued, -⟩ := parallel.order
    have some : 0 < config.parallelCalls.length := by
      rw [← queued, List.length_append]
      have := List.length_pos_iff.mpr left
      omega
    rw [none, opens some] at refused
    cases refused

def Brimming (config : BatchConfig ε) (batch : Batch δ ε) : Prop :=
  ∀ count < config.parallelCalls.length, config.limit.admits count = true →
    count + 1 ≤ batch.running

theorem advance_brims (order : batch.started ++ batch.sequential = config.sequentialCalls)
    (pumping : batch.pumping = false) :
    (batch.advance config).pumping = false ∨ Brimming config (batch.advance config) := by
  rw [advance]
  split
  · exact .inl pumping
  · rename_i done
    right
    rw [done, List.append_nil] at order
    have distinct := @partition_nodup ε config
    rw [← order, List.nodup_append] at distinct
    obtain ⟨fresh, pumped⟩ := @pump_pumped δ ε config config.parallelCalls
      { batch with queue := config.parallelCalls, inFlight := 0, pumping := true }
      distinct.2.1
    have enough : fresh.length ≤ (pump config config.parallelCalls
        { batch with queue := config.parallelCalls, inFlight := 0,
                     pumping := true }).running := by
      have all : fresh.countP (fun index => ((pump config config.parallelCalls
          { batch with queue := config.parallelCalls, inFlight := 0,
                       pumping := true }).stage index).isRunning) = fresh.length :=
        List.countP_eq_length.mpr fun index listed => by
          rw [pumped.running index listed]
          rfl
      rw [running, pumped.started, List.countP_append, all]
      omega
    intro count below admitted
    have taken := pumped.taken
    have counter := pumped.counter
    have reached : count + 1 ≤ fresh.length := by
      by_contra short
      by_cases left : (pump config config.parallelCalls
          { batch with queue := config.parallelCalls, inFlight := 0,
                       pumping := true }).queue = []
      · rw [left, List.append_nil] at taken
        rw [taken] at below
        omega
      · have refused := pumped.full left
        rw [counter, Nat.zero_add, Js.Number.admits_mono (by omega) admitted] at refused
        cases refused
    refine reached.trans (enough.trans_eq ?_)
    unfold Batch.tickle
    dsimp only
    split <;> rfl

theorem Serial.advance_order {before : List Nat} {current : Nat}
    (serial : Serial config batch before current) :
    batch.started ++ batch.sequential = config.sequentialCalls := by
  rw [serial.started, List.append_assoc]
  exact serial.order

theorem Sound.brims (sound : Sound config batch) (early : batch.pumping = false)
    (happened : batch.step config event = some next) :
    next.pumping = false ∨ Brimming config next := by
  rcases sound with ⟨before, current, serial⟩ | parallel
  · cases event with
    | settle =>
      rw [Batch.step] at happened
      split at happened <;> cases happened
      exact .inl early
    | resume =>
      rw [Batch.step] at happened
      split at happened <;> cases happened
      refine advance_brims ?_ ?_
      · rw [keep_same]
        exact serial.advance_order
      · rw [keep_same]
        exact early
    | store =>
      rw [Batch.step] at happened
      split at happened
      · cases happened
        rw [keep_same]
        exact .inl early
      · cases happened
    | release index =>
      rw [Batch.step] at happened
      split at happened
      · rename_i answer stored
        exact (serial.unstored stored).elim
      · cases happened
  · rw [parallel.pumping] at early
    cases early

theorem begin_brims : (begin config : Batch δ ε).pumping = false ∨
    Brimming config (begin config : Batch δ ε) := by
  unfold begin
  dsimp only
  split
  · rename_i none
    right
    intro count below
    simp [BatchConfig.parallelCalls, none] at below
  · exact advance_brims rfl rfl

/-- A run that gets to the parallel calls has been brimming. -/
theorem exists_brimming {events : List (Event δ ε)} {final : Batch δ ε}
    (sound : Sound config batch) (brims : batch.pumping = false ∨ Brimming config batch)
    (played : play config events batch = some final) (pumping : final.pumping = true) :
    ∃ earlier later middle, events = earlier ++ later ∧
      play config earlier batch = some middle ∧ Brimming config middle := by
  induction events generalizing batch with
  | nil =>
    cases played
    refine ⟨[], [], final, rfl, rfl, brims.resolve_left ?_⟩
    rw [pumping]
    exact Bool.noConfusion
  | cons event rest ih =>
    rcases brims with early | brimming
    · obtain ⟨next, happened, after⟩ := Option.bind_eq_some_iff.mp played
      obtain ⟨earlier, later, middle, rfl, reached, brimming⟩ :=
        ih (sound.step happened) (sound.brims early happened) after
      refine ⟨event :: earlier, later, middle, rfl, ?_, brimming⟩
      rw [play, happened]
      exact reached
    · exact ⟨[], event :: rest, batch, rfl, rfl, brimming⟩

theorem begin_running (some : 0 < config.sequentialCalls.length) :
    (begin config : Batch δ ε).running = 1 := by
  obtain ⟨index, rest, split⟩ := List.exists_cons_of_length_pos some
  have nonempty : config.calls ≠ [] := by
    intro none
    simp [BatchConfig.sequentialCalls, none] at some
  simp [begin, nonempty, advance, split, running, start, setStage, Stage.isRunning]

/-- What the batch and the messages after it owe to every call. -/
structure Delivers (config : BatchConfig ε) (json : Json δ) (messages : List ToolMessage)
    (events : List (Event δ ε)) (final : Batch δ ε) : Prop where
  bounded : ∀ earlier later middle, events = earlier ++ later →
    play config earlier (begin config) = some middle → 0 < middle.running →
      config.limit.allows middle.running = true
  apart : ∀ earlier later middle, events = earlier ++ later →
    play config earlier (begin config) = some middle →
      ∀ first second, config.sequentialAt first = true →
        config.sequentialAt second = true → (middle.stage first).isRunning = true →
          (middle.stage second).isRunning = true → first = second
  resolved : final.resolved = true
  once : final.started.Perm (List.range config.calls.length)
  answered : final.returned.map some = (List.range config.calls.length).map fun index =>
    (final.stage index).answer.bind (config.completedAt index)
  dispatched : ∃ texts, List.Forall₂ (fun completed text =>
      renderOutcome json completed.outcome = .ok text) final.returned texts ∧
    dispatchToolBatch json final.returned config.calls messages =
      (.ok (), messages ++ List.zipWith (fun call text =>
        ⟨call.toolCallId, text⟩) config.calls texts)

end Batch

theorem find?_of_unique {α : Type} {items : List α} {test : α → Bool} {item : α}
    (member : item ∈ items) (holds : test item = true)
    (unique : ∀ other ∈ items, test other = true → other = item) :
    items.find? test = some item := by
  cases found : items.find? test with
  | none => exact absurd holds (List.find?_eq_none.mp found item member)
  | some other =>
    rw [unique other (List.mem_of_find?_eq_some found) (List.find?_some found)]

theorem dispatchToolBatch_all {json : Json δ} {completed : List (Completed δ)}
    {todo : List ToolCall} {texts : List String} {messages : List ToolMessage}
    (each : List.Forall₂ (fun call text => ∃ result,
      byCallId completed call.toolCallId = some result ∧
        renderOutcome json result.outcome = .ok text) todo texts) :
    dispatchToolBatch json completed todo messages =
      (.ok (), messages ++ List.zipWith (fun call text =>
        ⟨call.toolCallId, text⟩) todo texts) := by
  induction each generalizing messages with
  | nil => simp [dispatchToolBatch]
  | cons here _ ih =>
    obtain ⟨result, found, rendered⟩ := here
    rw [dispatchToolBatch, found]
    dsimp only
    rw [rendered]
    dsimp only
    rw [ih, List.append_assoc]
    rfl

namespace Batch

/-- The results of a batch that has resolved, where ids differ. -/
theorem Filed.answered {batch : Batch δ ε} (filed : Filed config batch)
    (parallel : Parallel config batch) (resolved : batch.resolved = true)
    (distinct : config.Distinct) :
    batch.returned.map some = (List.range config.calls.length).map fun index =>
      (batch.stage index).answer.bind (config.completedAt index) := by
  obtain ⟨emptied, idle⟩ := parallel.resolution.mp resolved
  have done : ∀ index < config.calls.length, (batch.stage index).isDone = true := by
    intro index inside
    have started : index ∈ batch.started := by
      obtain ⟨taken, started, queued, -⟩ := parallel.order
      rw [emptied, List.append_nil] at queued
      rw [started, queued]
      exact calls_partition.mem_iff.mpr (List.mem_range.mpr inside)
    have begun := parallel.begun index started
    have uncounted : (batch.stage index).counted = false := by
      rw [parallel.counter, List.countP_eq_zero] at idle
      exact Bool.eq_false_iff.mpr (idle index started)
    cases staged : batch.stage index with
    | done => rfl
    | waiting =>
      rw [staged] at begun
      cases begun
    | running =>
      rw [staged] at uncounted
      cases uncounted
    | settled =>
      rw [staged] at uncounted
      cases uncounted
    | stored =>
      rw [staged] at uncounted
      cases uncounted
  have results : batch.results = (List.range config.calls.length).map fun index =>
      (batch.stage index).answer.bind (config.completedAt index) := by
    refine List.ext_getElem? fun index => ?_
    by_cases inside : index < config.calls.length
    · rw [filed.own distinct index inside, List.getElem?_map,
        List.getElem?_range inside, Option.map_some]
      congr 2
      have settled := done index inside
      cases staged : batch.stage index <;> rw [staged] at settled <;>
        first | rfl | cases settled
    · rw [List.getElem?_eq_none (by rw [filed.length]; omega),
        List.getElem?_eq_none (by rw [List.length_map, List.length_range]; omega)]
  have whole : ∀ slot ∈ batch.results, ∃ completed, slot = some completed := by
    intro slot listed
    rw [results] at listed
    obtain ⟨index, inside, rfl⟩ := List.mem_map.mp listed
    rw [List.mem_range] at inside
    have settled := done index inside
    cases staged : batch.stage index <;> rw [staged] at settled <;> try cases settled
    rename_i answer
    refine ⟨⟨config.calls[index], config.outcomeOf config.calls[index] answer⟩, ?_⟩
    simp [Stage.answer, BatchConfig.completedAt, List.getElem?_eq_getElem inside]
  rw [← results, returned]
  clear results
  generalize batch.results = slots at whole
  induction slots with
  | nil => rfl
  | cons slot _ ih =>
    obtain ⟨completed, rfl⟩ := whole slot List.mem_cons_self
    exact congrArg (List.cons (some completed))
      (ih fun slot listed => whole slot (List.mem_cons_of_mem _ listed))

end Batch

variable {α β : Type}

theorem exists_of_forall₂ {relation : α → β → Prop} {items : List α} {values : List β}
    (all : List.Forall₂ relation items values) {item : α} (member : item ∈ items) :
    ∃ value, relation item value := by
  induction all with
  | nil => cases member
  | cons here _ ih =>
    rcases List.mem_cons.mp member with rfl | later
    · exact ⟨_, here⟩
    · exact ih later

theorem exists_forall₂ {relation : α → β → Prop} {items : List α}
    (each : ∀ item ∈ items, ∃ value, relation item value) :
    ∃ values, List.Forall₂ relation items values := by
  induction items with
  | nil => exact ⟨[], .nil⟩
  | cons head _ ih =>
    obtain ⟨value, here⟩ := each head List.mem_cons_self
    obtain ⟨values, there⟩ := ih fun item listed => each item (List.mem_cons_of_mem _ listed)
    exact ⟨value :: values, .cons here there⟩

variable {batch : Batch δ ε}

theorem calls_of_answered
    (answered : batch.returned.map some =
      (List.range config.calls.length).map fun index => (batch.stage index).answer.bind
        (config.completedAt index)) :
    batch.returned.map Completed.call = config.calls := by
  refine List.ext_getElem? fun index => ?_
  have here := congrArg (fun slots => slots[index]?) answered
  simp only [List.getElem?_map] at here ⊢
  by_cases inside : index < config.calls.length
  · rw [List.getElem?_range inside, Option.map_some] at here
    obtain ⟨completed, found, same⟩ := Option.map_eq_some_iff.mp here
    obtain ⟨answer, -, made⟩ := Option.bind_eq_some_iff.mp same.symm
    obtain ⟨call, own, rfl⟩ := Option.map_eq_some_iff.mp made
    rw [found, own]
    rfl
  · have outside : (List.range config.calls.length)[index]? = none :=
      List.getElem?_eq_none (by rw [List.length_range]; omega)
    rw [outside, Option.map_none, Option.map_eq_none_iff] at here
    rw [here, List.getElem?_eq_none (by omega)]
    rfl

theorem answer_of_returned
    (answered : batch.returned.map some =
      (List.range config.calls.length).map fun index => (batch.stage index).answer.bind
        (config.completedAt index))
    {completed : Completed δ} (listed : completed ∈ batch.returned) :
    ∃ index answer, (batch.stage index).answer = some answer ∧
      config.completedAt index answer = some completed := by
  have member := @List.mem_map_of_mem _ _ _ _ some listed
  rw [answered] at member
  obtain ⟨index, -, same⟩ := List.mem_map.mp member
  obtain ⟨answer, settled, made⟩ := Option.bind_eq_some_iff.mp same
  exact ⟨index, answer, settled, made⟩

theorem dispatched_of_answered {json : Json δ} {messages : List ToolMessage}
    (distinct : config.Distinct)
    (answered : batch.returned.map some =
      (List.range config.calls.length).map fun index => (batch.stage index).answer.bind
        (config.completedAt index))
    (rendered : ∀ index outcome, (batch.stage index).answer = some (.ok outcome) → ∃ text,
      renderOutcome json outcome = .ok text) :
    ∃ texts, List.Forall₂ (fun completed text =>
        renderOutcome json completed.outcome = .ok text) batch.returned texts ∧
      dispatchToolBatch json batch.returned config.calls messages =
        (.ok (), messages ++ List.zipWith (fun call text =>
          ⟨call.toolCallId, text⟩) config.calls texts) := by
  have calls := calls_of_answered answered
  have ids : (batch.returned.map fun completed => completed.call.toolCallId).Nodup := by
    rw [BatchConfig.Distinct, ← calls, List.map_map] at distinct
    exact distinct
  have each : ∀ completed ∈ batch.returned, ∃ text,
      byCallId batch.returned completed.call.toolCallId = some completed ∧
        renderOutcome json completed.outcome = .ok text := by
    intro completed listed
    have found : byCallId batch.returned completed.call.toolCallId = some completed := by
      refine find?_of_unique (List.mem_reverse.mpr listed) (decide_eq_true rfl) ?_
      intro other member same
      exact List.inj_on_of_nodup_map ids (List.mem_reverse.mp member) listed
        (of_decide_eq_true same)
    obtain ⟨index, answer, settled, made⟩ := answer_of_returned answered listed
    obtain ⟨call, -, rfl⟩ := Option.map_eq_some_iff.mp made
    cases answer with
    | error => exact ⟨_, found, rfl⟩
    | ok outcome =>
      obtain ⟨text, same⟩ := rendered index outcome settled
      exact ⟨text, found, same⟩
  obtain ⟨texts, all⟩ := exists_forall₂ each
  refine ⟨texts, all.imp fun _ _ both => both.2, dispatchToolBatch_all ?_⟩
  rw [← calls, List.forall₂_map_left_iff]
  exact all.imp fun completed _ both => ⟨completed, both⟩

/-- A batch settles and owes nothing exactly where ids differ, the limit fits the
batch, and every output can be written. -/
theorem executeBatch_delivers {json : Json δ} {messages : List ToolMessage}
    {events : List (Batch.Event δ ε)} {final : Batch δ ε}
    (played : Batch.play config events (Batch.begin config) = some final) :
    events.length ≤ 3 * config.calls.length ∧ (final.Complete config →
        (Batch.Delivers config json messages events final ↔ config.Distinct ∧
            config.limit.fits config.sequentialCalls.length
              config.parallelCalls.length ∧
            ∀ index outcome, .settle index (.ok outcome) ∈ events →
              ∃ text, renderOutcome json outcome = .ok text)) := by
  have began := @Batch.begin_sound δ ε config
  have sound := began.play played
  have filed := Batch.play_filed Batch.begin_filed began played
  have settled : ∀ index answer, (final.stage index).answer = some answer ↔
      .settle index answer ∈ events := by
    intro index answer
    rw [Batch.play_answer began played, Batch.begin_answer]
    simp
  refine ⟨?_, fun complete => ?_⟩
  · have bounded := Batch.play_bounded began played
    have most := @Batch.remaining_le δ ε config (Batch.begin config)
    omega
  constructor
  · intro delivers
    have distinct : config.Distinct := by
      by_contra repeated
      have fewer := filed.missing repeated
      have equal := congrArg List.length delivers.answered
      rw [List.length_map, List.length_map, List.length_range] at equal
      omega
    have parallel : Batch.Parallel config final := by
      refine sound.resolve_left ?_
      rintro ⟨before, current, serial⟩
      exact absurd delivers.resolved (by rw [serial.resolved]; decide)
    have emptied := (parallel.resolution.mp delivers.resolved).1
    refine ⟨distinct, Limit.fits_iff.mpr ⟨?_, ?_, ?_⟩, ?_⟩
    · intro some
      have one := @Batch.begin_running δ ε config some
      have allowed := delivers.bounded [] events _ rfl rfl (by rw [one]; exact Nat.one_pos)
      rwa [one] at allowed
    · intro some
      obtain ⟨taken, -, queued, opened⟩ := parallel.order
      rw [emptied, List.append_nil] at queued
      exact opened (List.length_pos_iff.mp (queued ▸ some))
    · intro count below admitted
      obtain ⟨earlier, later, middle, split, reached, brimming⟩ :=
        Batch.exists_brimming began Batch.begin_brims played parallel.pumping
      have enough := brimming count below admitted
      exact Js.Number.allows_mono enough
        (delivers.bounded earlier later middle split reached (by omega))
    · intro index outcome happened
      have held := (settled index _).mpr happened
      have inside := @Batch.Sound.inside δ ε config final sound index (by
        cases staged : final.stage index <;> rw [staged] at held <;>
          first | rfl | cases held)
      have member : (⟨config.calls[index], outcome⟩ : Completed δ) ∈ final.returned := by
        refine (List.mem_map_of_injective (Option.some_injective _)).mp ?_
        rw [delivers.answered]
        refine List.mem_map.mpr ⟨index, List.mem_range.mpr inside, ?_⟩
        rw [held]
        simp [BatchConfig.completedAt, List.getElem?_eq_getElem inside,
          BatchConfig.outcomeOf]
      obtain ⟨texts, all, -⟩ := delivers.dispatched
      exact exists_of_forall₂ all member
  · rintro ⟨distinct, fit, rendered⟩
    obtain ⟨parallel, resolved⟩ := sound.resolved complete (Limit.fits_iff.mp fit).2.1
    have answered := filed.answered parallel resolved distinct
    refine ⟨?_, ?_, resolved, ?_, answered, ?_⟩
    · intro earlier later middle _ reached positive
      exact (began.play reached).running_allowed fit positive
    · intro earlier later middle _ reached first second one _ running running'
      exact (began.play reached).apart one running running'
    · obtain ⟨taken, started, queued, -⟩ := parallel.order
      rw [(parallel.resolution.mp resolved).1, List.append_nil] at queued
      rw [started, queued]
      exact calls_partition
    · refine dispatched_of_answered distinct answered fun index outcome held => ?_
      exact rendered index outcome ((settled index _).mp held)

section Examples

open Batch

private def ask (toolCallId : String) : ToolCall := ⟨toolCallId, "search", .undefined⟩

private def searches (ids : List String) (limit : Limit) : BatchConfig Unit where
  calls := ids.map ask
  isSequential := fun _ => false
  limit := limit
  describe := fun _ => ""

private def plainJson : Json Unit where
  text := fun text => text
  value := fun _ => .ok none

private def found (text : String) : Answer Unit Unit := .ok (.success (.text text) none)

private def bothRun : List (Event Unit Unit) :=
  [.settle 0 (found "first"), .settle 1 (found "second"), .store 1, .store 0,
    .release 1, .release 0]

/-- Two calls with one id come to one result, and a limit of zero to none. -/
theorem executeBatch_loses_outcomes :
    (∃ final, play (searches ["a", "a"] .infinity) bothRun
        (begin (searches ["a", "a"] .infinity)) = some final ∧
      final.Complete (searches ["a", "a"] .infinity) ∧
      ¬ Delivers (searches ["a", "a"] .infinity) plainJson [] bothRun final) ∧
    ∃ final : Batch Unit Unit, play (searches ["a"] (.finite 0)) []
        (begin (searches ["a"] (.finite 0))) = some final ∧
      final.Complete (searches ["a"] (.finite 0)) ∧
      ¬ Delivers (searches ["a"] (.finite 0)) plainJson [] [] final := by
  constructor
  · refine ⟨_, rfl, complete_of_idle ?_, ?_⟩
    · rintro (_ | _ | index) <;> rfl
    · intro delivers
      have equal := congrArg List.length delivers.answered
      revert equal
      decide
  · refine ⟨_, rfl, complete_of_idle ?_, ?_⟩
    · intro index
      simp [begin, searches, advance, tickle, pump, BatchConfig.sequentialCalls,
        BatchConfig.parallelCalls, BatchConfig.sequentialAt, Js.Number.admits, List.range,
        List.range.loop, ask, Stage.counted]
    · intro delivers
      have settled := delivers.resolved
      revert settled
      simp [begin, searches, advance, tickle, pump, BatchConfig.sequentialCalls,
        BatchConfig.parallelCalls, BatchConfig.sequentialAt, Js.Number.admits, List.range,
        List.range.loop, ask]

theorem executeBatch_delivers_both :
    ∃ final, Delivers (searches ["a", "b"] .infinity) plainJson [] bothRun final := by
  refine ⟨_, ((@executeBatch_delivers Unit Unit (searches ["a", "b"] .infinity)
    plainJson [] bothRun _ rfl).2 (complete_of_idle ?_)).mpr ⟨by decide, trivial, ?_⟩⟩
  · rintro (_ | _ | index) <;> rfl
  · intro index outcome happened
    simp only [bothRun, List.mem_cons, Event.settle.injEq, reduceCtorEq, or_false,
      List.not_mem_nil] at happened
    rcases happened with ⟨-, same⟩ | ⟨-, same⟩
    · cases same
      exact ⟨_, rfl⟩
    · cases same
      exact ⟨_, rfl⟩

end Examples

end Graphorin.Tools
