import Graphorin.Tools.Pump
import Mathlib.Algebra.Order.BigOperators.Group.List
import Mathlib.Data.List.Nodup

namespace Graphorin.Tools

open Graphorin.Agent (ToolCall)

/-! The outcome of a call reaches the message of that call. -/

variable {δ ε : Type} {config : BatchConfig ε}

namespace Stage

def remaining : Stage δ ε → Nat
  | .waiting | .running => 3
  | .settled _ => 2
  | .stored _ => 1
  | .done _ => 0

end Stage

namespace Batch

inductive Moves : Event δ ε → Nat → Stage δ ε → Stage δ ε → Prop
  | settle (index : Nat) (answer : Answer δ ε) :
      Moves (.settle index answer) index .running (.settled answer)
  | resume (index : Nat) (answer : Answer δ ε) :
      Moves (.resume index) index (.settled answer) (.done answer)
  | store (index : Nat) (answer : Answer δ ε) :
      Moves (.store index) index (.settled answer) (.stored answer)
  | release (index : Nat) (answer : Answer δ ε) :
      Moves (.release index) index (.stored answer) (.done answer)

structure Starts (before after : Batch δ ε) : Prop where
  stage : ∀ index, after.stage index = before.stage index ∨
    (before.stage index = .waiting ∧ after.stage index = .running)
  results : after.results = before.results

theorem Starts.refl (batch : Batch δ ε) : Starts batch batch := ⟨fun _ => .inl rfl, rfl⟩

theorem tickle_starts {batch : Batch δ ε} (distinct : batch.queue.Nodup)
    (waiting : ∀ index ∈ batch.queue, batch.stage index = .waiting) :
    Starts batch (batch.tickle config) := by
  obtain ⟨fresh, pumped⟩ := @pump_pumped δ ε config batch.queue batch distinct
  have same : Starts batch (pump config batch.queue batch) := by
    refine ⟨fun index => ?_, pumped.results⟩
    by_cases new : index ∈ fresh
    · refine .inr ⟨waiting index ?_, pumped.running index new⟩
      rw [pumped.taken]
      exact List.mem_append_left _ new
    · exact .inl (pumped.others index new)
  unfold Batch.tickle
  dsimp only
  split
  · exact ⟨same.stage, same.results⟩
  · exact same

variable {batch : Batch δ ε}

theorem advance_starts (order : batch.started ++ batch.sequential = config.sequentialCalls)
    (waiting : ∀ index, index ∉ batch.started → batch.stage index = .waiting) :
    Starts batch (batch.advance config) := by
  have distinct := @partition_nodup ε config
  rw [← order] at distinct
  rw [advance]
  split
  · rename_i next rest todo
    rw [todo] at distinct
    refine ⟨fun index => ?_, rfl⟩
    by_cases same : index = next
    · subst same
      refine .inr ⟨waiting index fun started => ?_, Function.update_self ..⟩
      rw [List.append_assoc, List.nodup_append] at distinct
      exact distinct.2.2 index started index List.mem_cons_self rfl
    · exact .inl (Function.update_of_ne same ..)
  · rename_i done
    rw [done, List.append_nil, List.nodup_append] at distinct
    have ticked := @tickle_starts δ ε config
      { batch with queue := config.parallelCalls, inFlight := 0, pumping := true }
      distinct.2.1 fun index listed => waiting index fun started =>
        distinct.2.2 index started index listed rfl
    exact ⟨ticked.stage, ticked.results⟩

structure Stepped (config : BatchConfig ε) (batch next : Batch δ ε)
    (event : Event δ ε) (index : Nat) (old new : Stage δ ε) : Prop where
  moves : Moves event index old new
  inside : index < config.calls.length
  before : batch.stage index = old
  after : next.stage index = new
  others : ∀ other, other ≠ index → next.stage other = batch.stage other ∨
    (batch.stage other = .waiting ∧ next.stage other = .running)
  results : (old.kept = new.kept ∧ next.results = batch.results) ∨
    ∃ answer, old.kept = none ∧ new.kept = some answer ∧
      next.results = (batch.keep config index answer).results

theorem Sound.inside {batch : Batch δ ε} (sound : Sound config batch) {index : Nat}
    (active : (batch.stage index).isWaiting = false) : index < config.calls.length := by
  have member : index ∈ config.sequentialCalls ++ config.parallelCalls := by
    rcases sound with ⟨before, current, serial⟩ | parallel
    · have started : index ∈ batch.started := by
        by_contra absent
        rw [serial.waiting index absent] at active
        cases active
      rw [serial.started] at started
      refine List.mem_append_left _ ?_
      rw [← serial.order]
      simp only [List.mem_append, List.mem_cons] at started ⊢
      rcases started with earlier | rfl | none
      · exact .inl earlier
      · exact .inr (.inl rfl)
      · cases none
    · have started : index ∈ batch.started := by
        by_contra absent
        rw [parallel.waiting index absent] at active
        cases active
      obtain ⟨taken, same, queued, -⟩ := parallel.order
      rw [same] at started
      rw [← queued]
      simp only [List.mem_append] at started ⊢
      exact started.imp_right .inl
  exact List.mem_range.mp (calls_partition.mem_iff.mp member)

variable {next : Batch δ ε} {event : Event δ ε} {index : Nat} {old new : Stage δ ε}

theorem Starts.stepped (starts : Starts middle next) (moves : Moves event index old new)
    (inside : index < config.calls.length) (before : batch.stage index = old)
    (set : middle.stage = Function.update batch.stage index new)
    (begun : new.isWaiting = false)
    (results : (old.kept = new.kept ∧ middle.results = batch.results) ∨ ∃ answer, old.kept =
      none ∧ new.kept = some answer ∧ middle.results = (batch.keep config index answer).results) :
    Stepped config batch next event index old new := by
  refine ⟨moves, inside, before, ?_, ?_, ?_⟩
  · rcases starts.stage index with same | ⟨waiting, -⟩
    · rw [same, set, Function.update_self]
    · rw [set, Function.update_self] at waiting
      rw [waiting] at begun
      cases begun
  · intro other apart
    have here : middle.stage other = batch.stage other := by
      rw [set, Function.update_of_ne apart]
    rw [← here]
    exact starts.stage other
  · rw [starts.results]
    exact results

theorem keep_setStage_results (batch : Batch δ ε) (index : Nat) (stage : Stage δ ε)
    (answer : Answer δ ε) : ((batch.setStage index stage).keep config index
      answer).results = (batch.keep config index answer).results := by
  rw [keep, keep]
  split
  · rfl
  · split <;> rfl

theorem Sound.stepped (sound : Sound config batch)
    (happened : batch.step config event = some next) :
    ∃ index old new, Stepped config batch next event index old new := by
  cases event with
  | settle index answer =>
    rw [Batch.step] at happened
    split at happened
    · rename_i running
      cases happened
      exact ⟨index, _, _, (Starts.refl _).stepped (.settle index answer)
        (sound.inside (by rw [running]; rfl)) running rfl rfl (.inl ⟨rfl, rfl⟩)⟩
    · cases happened
  | resume index =>
    rw [Batch.step] at happened
    split at happened
    · rename_i answer sequential settled
      cases happened
      have active : (batch.stage index).counted = true := by rw [settled]; rfl
      rcases sound with ⟨before, current, serial⟩ | parallel
      · obtain rfl := serial.own active
        have sound : Sound config batch := .inl ⟨before, index, serial⟩
        refine ⟨index, _, _, (advance_starts ?_ ?_).stepped (.resume index answer)
          (sound.inside (by rw [settled]; rfl)) settled (keep_stage ..) rfl
          (.inr ⟨answer, rfl, rfl, keep_setStage_results ..⟩)⟩
        · rw [keep_same]
          dsimp only [setStage]
          rw [serial.started, List.append_assoc]
          exact serial.order
        · rw [keep_same]
          intro other absent
          have apart : other ≠ index := by
            rintro rfl
            refine absent ?_
            change other ∈ batch.started
            rw [serial.started]
            exact List.mem_append_right _ (List.mem_singleton.mpr rfl)
          exact (Function.update_of_ne apart ..).trans (serial.waiting other absent)
      · rw [parallel.parallelAt active] at sequential
        cases sequential
    · cases happened
  | store index =>
    rw [Batch.step] at happened
    split at happened
    · rename_i answer nonsequential settled
      cases happened
      exact ⟨index, _, _, (Starts.refl _).stepped (.store index answer)
        (sound.inside (by rw [settled]; rfl)) settled (keep_stage ..) rfl
        (.inr ⟨answer, rfl, rfl, keep_setStage_results ..⟩)⟩
    · cases happened
  | release index =>
    rw [Batch.step] at happened
    split at happened
    · rename_i answer stored
      have inside := @Sound.inside δ ε config batch sound index (by rw [stored]; rfl)
      rcases sound with ⟨before, current, serial⟩ | parallel
      · exact (serial.unstored stored).elim
      · obtain ⟨-, counted⟩ := parallel.toCounted.release stored
        have distinct := List.nodup_append.mp counted.nodup
        have starts := @tickle_starts δ ε config _ distinct.2.1 fun other queued =>
          counted.waiting other fun started =>
            distinct.2.2 other started other queued rfl
        dsimp only at happened
        split at happened
        · cases happened
          exact ⟨index, _, _, (Starts.refl _).stepped (.release index answer) inside
            stored rfl rfl (.inl ⟨rfl, rfl⟩)⟩
        · cases happened
          exact ⟨index, _, _, starts.stepped (.release index answer) inside stored rfl
            rfl (.inl ⟨rfl, rfl⟩)⟩
    · cases happened

def remaining (config : BatchConfig ε) (batch : Batch δ ε) : Nat :=
  ((List.range config.calls.length).map fun index => (batch.stage index).remaining).sum

theorem Moves.remaining (moves : Moves event index old new) :
    new.remaining < old.remaining := by
  cases moves <;> simp [Stage.remaining]

theorem Moves.answer (moves : Moves event index old new) (answer : Answer δ ε) :
    new.answer = some answer ↔ old.answer = some answer ∨ event = .settle index answer := by
  cases moves <;> simp [Stage.answer, eq_comm]

theorem sum_map_lt {places : List Nat} {before after : Nat → Nat} (member : index ∈ places)
    (lower : after index < before index) (others : ∀ place, after place ≤ before place) :
    (places.map after).sum < (places.map before).sum := by
  induction places with
  | nil => cases member
  | cons head rest ih =>
    simp only [List.map_cons, List.sum_cons]
    have tail : (rest.map after).sum ≤ (rest.map before).sum :=
      List.sum_le_sum fun place _ => others place
    have first := others head
    rcases List.mem_cons.mp member with rfl | later
    · omega
    · have := ih later
      omega

theorem Stepped.remaining (stepped : Stepped config batch next event index old new) :
    next.remaining config < batch.remaining config := by
  refine sum_map_lt (List.mem_range.mpr stepped.inside) ?_ fun place => ?_
  · rw [stepped.after, stepped.before]
    exact stepped.moves.remaining
  · by_cases same : place = index
    · subst same
      rw [stepped.after, stepped.before]
      exact stepped.moves.remaining.le
    · rcases stepped.others place same with equal | ⟨waiting, running⟩
      · rw [equal]
      · rw [waiting, running]
        exact Nat.le_refl 3

theorem play_bounded (sound : Sound config batch)
    (played : play config events batch = some final) :
    events.length + final.remaining config ≤ batch.remaining config := by
  induction events generalizing batch with
  | nil =>
    cases played
    simp
  | cons event rest ih =>
    obtain ⟨next, happened, later⟩ := Option.bind_eq_some_iff.mp played
    obtain ⟨index, old, new, stepped⟩ := sound.stepped happened
    have fewer := stepped.remaining
    have more := ih (sound.step happened) later
    rw [List.length_cons]
    omega

theorem remaining_le (batch : Batch δ ε) :
    batch.remaining config ≤ 3 * config.calls.length := by
  have each : ∀ value ∈ (List.range config.calls.length).map fun index =>
      (batch.stage index).remaining, value ≤ 3 := by
    intro value listed
    obtain ⟨index, -, rfl⟩ := List.mem_map.mp listed
    cases batch.stage index <;> simp [Stage.remaining]
  have total := List.sum_le_card_nsmul _ _ each
  simpa [remaining, Nat.mul_comm] using total

theorem Stepped.answer (stepped : Stepped config batch next event index old new)
    (place : Nat) (answer : Answer δ ε) : (next.stage place).answer = some answer ↔
      (batch.stage place).answer = some answer ∨ event = .settle place answer := by
  by_cases same : place = index
  · subst same
    rw [stepped.after, stepped.before]
    exact stepped.moves.answer answer
  · have other : event ≠ .settle place answer := by
      intro settle
      have moves := stepped.moves
      rw [settle] at moves
      cases moves
      exact same rfl
    rcases stepped.others place same with equal | ⟨waiting, running⟩
    · rw [equal]
      simp [other]
    · rw [waiting, running]
      simp [other, Stage.answer]

theorem play_answer (sound : Sound config batch)
    (played : play config events batch = some final) (place : Nat) (answer : Answer δ ε) :
    (final.stage place).answer = some answer ↔
      (batch.stage place).answer = some answer ∨ .settle place answer ∈ events := by
  induction events generalizing batch with
  | nil =>
    cases played
    simp
  | cons event rest ih =>
    obtain ⟨next, happened, later⟩ := Option.bind_eq_some_iff.mp played
    obtain ⟨index, old, new, stepped⟩ := sound.stepped happened
    rw [ih (sound.step happened) later, stepped.answer, List.mem_cons, or_assoc]
    simp only [eq_comm]

end Batch

def BatchConfig.Distinct (config : BatchConfig ε) : Prop :=
  (config.calls.map ToolCall.toolCallId).Nodup

instance (config : BatchConfig ε) : Decidable config.Distinct :=
  inferInstanceAs (Decidable (List.Nodup _))

def BatchConfig.completedAt (config : BatchConfig ε) (index : Nat) (answer : Answer δ ε) :
    Option (Completed δ) :=
  (config.calls[index]?).map fun call => ⟨call, config.outcomeOf call answer⟩

variable {index : Nat}

theorem find?_reverse_range (found : (List.range count).reverse.find? test = some index) :
    index < count ∧ test index = true ∧
      ∀ later, index < later → later < count → test later = false := by
  induction count with
  | zero => cases found
  | succ count ih =>
    rw [List.range_succ, List.reverse_append, List.reverse_singleton,
      List.singleton_append, List.find?_cons] at found
    split at found
    · rename_i last
      cases found
      exact ⟨Nat.lt_succ_self _, last, fun later above below => by omega⟩
    · rename_i last
      obtain ⟨inside, holds, none⟩ := ih found
      refine ⟨Nat.lt_succ_of_lt inside, holds, fun later above below => ?_⟩
      rcases Nat.lt_or_eq_of_le (Nat.le_of_lt_succ below) with lower | rfl
      · exact none later above lower
      · exact Bool.eq_false_iff.mpr (by simpa using last)

theorem indexByCallId_last (found : config.indexByCallId toolCallId = some index) :
    (∃ call, config.calls[index]? = some call ∧ call.toolCallId = toolCallId) ∧
      ∀ (later : Nat) (call : ToolCall), index < later →
        config.calls[later]? = some call → call.toolCallId ≠ toolCallId := by
  obtain ⟨-, holds, none⟩ := find?_reverse_range found
  constructor
  · obtain ⟨call, here, same⟩ := (Option.any_eq_true _ _).mp holds
    exact ⟨call, here, of_decide_eq_true same⟩
  · intro later call above here same
    have inside : later < config.calls.length := (List.getElem?_eq_some_iff.mp here).1
    have refused := none later above inside
    rw [here] at refused
    simp [same] at refused

theorem indexByCallId_own (distinct : config.Distinct)
    (here : config.calls[index]? = some call) :
    config.indexByCallId call.toolCallId = some index := by
  have inside : index < config.calls.length := (List.getElem?_eq_some_iff.mp here).1
  cases found : config.indexByCallId call.toolCallId with
  | none =>
    have refused := List.find?_eq_none.mp found index
      (List.mem_reverse.mpr (List.mem_range.mpr inside))
    simp [here] at refused
  | some place =>
    obtain ⟨⟨other, there, same⟩, -⟩ := indexByCallId_last found
    congr 1
    have below : place < (config.calls.map ToolCall.toolCallId).length := by
      rw [List.length_map]
      exact (List.getElem?_eq_some_iff.mp there).1
    refine (List.getElem?_inj below distinct).mp ?_
    rw [List.getElem?_map, List.getElem?_map, here, there]
    exact congrArg some same

namespace Batch

/-- Every result is in the slot of a call, and in its own if ids differ. -/
structure Filed (config : BatchConfig ε) (batch : Batch δ ε) : Prop where
  length : batch.results.length = config.calls.length
  slots : ∀ slot completed, batch.results[slot]? = some (some completed) →
    ∃ toolCallId, config.indexByCallId toolCallId = some slot
  own : config.Distinct → ∀ index, index < config.calls.length →
    batch.results[index]? =
      some ((batch.stage index).kept.bind (config.completedAt index))

theorem keep_results {batch : Batch δ ε} (index : Nat) (answer : Answer δ ε) :
    (batch.keep config index answer).results = batch.results ∨
      ∃ slot toolCallId completed, config.indexByCallId toolCallId = some slot ∧
        (batch.keep config index answer).results =
          batch.results.set slot (some completed) := by
  rw [keep]
  split
  · exact .inl rfl
  · rename_i call _
    split
    · exact .inl rfl
    · rename_i slot found
      exact .inr ⟨slot, call.toolCallId, _, found, rfl⟩

variable {batch : Batch δ ε}

theorem keep_own (distinct : config.Distinct) (inside : index < config.calls.length)
    (answer : Answer δ ε) : (batch.keep config index answer).results =
      batch.results.set index (config.completedAt index answer) := by
  obtain ⟨call, here⟩ : ∃ call, config.calls[index]? = some call :=
    ⟨_, List.getElem?_eq_getElem inside⟩
  rw [keep, BatchConfig.completedAt, here]
  dsimp only
  rw [indexByCallId_own distinct here]
  rfl

theorem Filed.stepped (filed : Filed config batch)
    (stepped : Stepped config batch next event index old new) : Filed config next := by
  have elsewhere : ∀ other, other ≠ index →
      (next.stage other).kept = (batch.stage other).kept := by
    intro other apart
    rcases stepped.others other apart with same | ⟨waiting, running⟩
    · rw [same]
    · rw [waiting, running]
      rfl
  rcases stepped.results with ⟨still, same⟩ | ⟨answer, none, kept, stored⟩
  · refine ⟨same ▸ filed.length, same ▸ filed.slots, fun distinct place inside => ?_⟩
    rw [same, filed.own distinct place inside]
    by_cases here : place = index
    · rw [here, stepped.before, stepped.after, still]
    · rw [elsewhere place here]
  · constructor
    · rcases @keep_results δ ε config batch index answer with same | ⟨_, _, _, -, set⟩
      · rw [stored, same, filed.length]
      · rw [stored, set, List.length_set, filed.length]
    · intro place completed held
      rcases @keep_results δ ε config batch index answer with
        same | ⟨slot, toolCallId, _, found, set⟩
      · rw [stored, same] at held
        exact filed.slots place completed held
      · rw [stored, set, List.getElem?_set] at held
        split at held
        · rename_i here
          exact ⟨toolCallId, here ▸ found⟩
        · exact filed.slots place completed held
    · intro distinct place inside
      rw [stored, keep_own distinct stepped.inside, List.getElem?_set]
      split
      · rename_i here
        subst here
        rw [if_pos (by rw [filed.length]; exact inside), stepped.after, kept]
        rfl
      · rename_i apart
        rw [filed.own distinct place inside, elsewhere place (Ne.symm apart)]

theorem play_filed (filed : Filed config batch) (sound : Sound config batch)
    (played : play config events batch = some final) : Filed config final := by
  induction events generalizing batch with
  | nil =>
    cases played
    exact filed
  | cons event rest ih =>
    obtain ⟨next, happened, later⟩ := Option.bind_eq_some_iff.mp played
    obtain ⟨index, old, new, stepped⟩ := sound.stepped happened
    exact ih (filed.stepped stepped) (sound.step happened) later

theorem begin_starts : Starts
    ⟨List.replicate config.calls.length none, fun _ => .waiting, config.sequentialCalls,
      [], 0, false, false, []⟩ (begin config : Batch δ ε) := by
  unfold begin
  dsimp only
  split
  · exact ⟨fun _ => .inl rfl, rfl⟩
  · exact advance_starts rfl fun _ _ => rfl

theorem begin_filed : Filed config (begin config : Batch δ ε) := by
  have starts := @begin_starts δ ε config
  have empty : ∀ index, ((begin config : Batch δ ε).stage index).kept = none := by
    intro index
    rcases starts.stage index with same | ⟨-, running⟩
    · rw [same]
      rfl
    · rw [running]
      rfl
  constructor
  · rw [starts.results, List.length_replicate]
  · intro slot completed held
    rw [starts.results, List.getElem?_replicate] at held
    split at held <;> cases held
  · intro _ index inside
    rw [starts.results, empty, List.getElem?_replicate, if_pos inside]
    rfl

theorem begin_answer (index : Nat) :
    ((begin config : Batch δ ε).stage index).answer = none := by
  rcases (@begin_starts δ ε config).stage index with same | ⟨-, running⟩
  · rw [same]
    rfl
  · rw [running]
    rfl

/-- Of two calls with one id, the first has an empty slot for good. -/
theorem Filed.missing (filed : Filed config batch) (repeated : ¬ config.Distinct) :
    batch.returned.length < config.calls.length := by
  rw [BatchConfig.Distinct, List.nodup_iff_getElem?_ne_getElem?] at repeated
  push Not at repeated
  obtain ⟨first, second, before, inside, same⟩ := repeated
  rw [List.length_map] at inside
  have empty : batch.results[first]? = some none := by
    cases held : batch.results[first]? with
    | none =>
      have := List.getElem?_eq_none_iff.mp held
      rw [filed.length] at this
      omega
    | some slot =>
      cases slot with
      | none => rfl
      | some completed =>
        obtain ⟨toolCallId, found⟩ := filed.slots first completed held
        obtain ⟨⟨call, here, own⟩, none⟩ := indexByCallId_last found
        obtain ⟨other, there⟩ : ∃ other, config.calls[second]? = some other :=
          ⟨_, List.getElem?_eq_getElem inside⟩
        rw [List.getElem?_map, List.getElem?_map, here, there] at same
        exact absurd ((Option.some.inj same).symm.trans own)
          (none second other before there)
  rw [← filed.length]
  refine List.length_filterMap_lt_length_iff_exists.mpr ?_
  exact ⟨none, List.mem_of_getElem? empty, rfl⟩

end Batch

end Graphorin.Tools
