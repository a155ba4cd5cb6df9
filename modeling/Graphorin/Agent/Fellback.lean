import Mathlib.Data.List.Range
import Graphorin.Agent.Fallback

/-!
# What a fallback chain commits

One invariant per standing of the emergency retry carries the loop. The announced moves are
the moves made unless the retry falls on a candidate behind the primary: it is announced as
a move from the candidate to itself.
-/

namespace Graphorin.Agent.Fallback

open Graphorin.Provider (Usage zeroUsage)

def consecutive {α : Type} : List α → List (α × α)
  | first :: second :: rest => (first, second) :: consecutive (second :: rest)
  | _ => []

theorem consecutive_concat (list : List α) (next : α) :
    consecutive (list ++ [next]) =
      consecutive list ++ (list.getLast?.map fun last => (last, next)).toList := by
  induction list with
  | nil => rfl
  | cons _ rest ih =>
    cases rest with
    | nil => rfl
    | cons =>
      rw [List.cons_append, List.cons_append, consecutive, ← List.cons_append, ih,
        consecutive, List.getLast?_cons_cons]
      rfl

/-- The model id a position of the chain goes by. -/
def label (env : FallbackChainEnv) (place : Nat) : String :=
  if place = 0 then env.resolvedModelId
  else (env.fallbackChain[place]?.map Provider.modelId).getD env.resolvedModelId

def positions (calls : List (Nat × ProviderRequest)) : List Nat := calls.map Prod.fst

/-- From one candidate to another. -/
def moves (places : List Nat) : List (Nat × Nat) :=
  (consecutive places).filter fun move => move.1 ≠ move.2

def climbs (places : List Nat) : List (Nat × Nat) :=
  (consecutive places).filter fun move => 0 < move.2

def announced (env : FallbackChainEnv) (moves : List (Nat × Nat)) :
    List (String × String × Nat) :=
  moves.zipIdx.map fun entry => (label env entry.1.1, label env entry.1.2, entry.2 + 1)

def AgentEvent.fellback? : AgentEvent → Option (String × String × Nat)
  | .modelFellback event => some (event.fromModel, event.toModel, event.attempt)
  | _ => none

/-- From, to and number of each `agent.model.fellback`. -/
def fellbacks (events : List AgentEvent) : List (String × String × Nat) :=
  events.filterMap AgentEvent.fellback?

/-- The announcements are the moves between the candidates that were called. -/
def Announces (env : FallbackChainEnv) (run : ChainRun) : Prop :=
  fellbacks run.events = announced env (moves (positions run.calls))

instance (env : FallbackChainEnv) (run : ChainRun) : Decidable (Announces env run) :=
  inferInstanceAs (Decidable (_ = _))

theorem announced_concat (env : FallbackChainEnv) (moves : List (Nat × Nat))
    (move : Nat × Nat) : announced env (moves ++ [move]) =
      announced env moves ++ [(label env move.1, label env move.2, moves.length + 1)] := by
  rw [announced, announced, List.zipIdx_append, List.map_append, Nat.zero_add]
  rfl

theorem announced_length (env : FallbackChainEnv) (moves : List (Nat × Nat)) :
    (announced env moves).length = moves.length := by
  rw [announced, List.length_map, List.length_zipIdx]

theorem fellbacks_append (first second : List AgentEvent) :
    fellbacks (first ++ second) = fellbacks first ++ fellbacks second :=
  List.filterMap_append

theorem fellbacks_handled (attempt : Attempt) (event : ProviderEvent) :
    fellbacks (handleProviderEvent attempt event).2 = [] := by
  cases event with
  | toolCallEnd =>
    rw [handleProviderEvent]
    split <;> rfl
  | _ => rfl

theorem fellbacks_streamed (events : List (ProviderEvent × Bool)) (attempt : Attempt) :
    fellbacks (streamEvents events attempt).2.1 = [] := by
  induction events generalizing attempt with
  | nil => rfl
  | cons entry _ ih =>
    obtain ⟨event, aborted⟩ := entry
    rw [streamEvents]
    split
    · rfl
    · rw [fellbacks_append, fellbacks_handled, ih]
      rfl

theorem fellbacks_attempt (play : Play) : fellbacks (runAttempt play).events = [] := by
  have streamed := fellbacks_streamed play.events {}
  rw [runAttempt]
  split
  · exact streamed
  · split
    · exact streamed
    · split <;> exact streamed

structure Spoken (env : FallbackChainEnv) (places : List Nat) (lastModelId : String)
    (attempt : Nat) (events : List AgentEvent) : Prop where
  known : lastModelId = label env (places.getLast?.getD 0)
  spoken : fellbacks events = announced env (climbs places)
  count : attempt = (climbs places).length
  steps : ∀ move ∈ consecutive places, move.2 = move.1 ∨ move.2 = move.1 + 1

def Next (places : List Nat) (place : Nat) : Prop :=
  places.getLast? = none ∧ place = 0 ∨
    ∃ last, places.getLast? = some last ∧ (place = last ∨ place = last + 1)

variable {env : FallbackChainEnv} {place : Nat} {candidate : Provider}

theorem label_eq (here : env.fallbackChain[place]? = some candidate) (later : 0 < place) :
    label env place = candidate.modelId := by
  rw [label, if_neg (by omega), here]
  rfl

variable {places : List Nat}

theorem climbs_concat (next : Next places place) :
    climbs (places ++ [place]) =
      climbs places ++
        if 0 < place then [(places.getLast?.getD 0, place)] else [] := by
  rw [climbs, consecutive_concat, List.filter_append, ← climbs]
  refine congrArg (climbs places ++ ·) ?_
  rcases next with ⟨none, rfl⟩ | ⟨last, known, -⟩
  · rw [none]
    rfl
  · rw [known, Option.map_some, Option.toList_some, List.filter_singleton, Option.getD_some]
    exact Bool.cond_decide _ _ _

variable {chain : Chain}

theorem Spoken.called
    (spoken : Spoken env (positions chain.calls) chain.lastModelId chain.attempt chain.events)
    (next : Next (positions chain.calls) chain.chainIdx)
    (here : env.fallbackChain[chain.chainIdx]? = some candidate) :
    Spoken env (positions chain.calls ++ [chain.chainIdx])
      (chain.called env candidate).lastModelId (chain.called env candidate).attempt
        (chain.called env candidate).events := by
  have climbed := climbs_concat next
  have silent : fellbacks (chain.call env candidate).events = [] := fellbacks_attempt _
  refine ⟨?_, ?_, ?_, ?_⟩
  · rw [List.getLast?_concat, Option.getD_some, Chain.called, Chain.enter]
    split
    · rename_i later
      exact (label_eq here later).symm
    · rename_i first
      have zero : chain.chainIdx = 0 := by omega
      refine spoken.known.trans (congrArg (label env) ?_)
      rcases next with ⟨none, -⟩ | ⟨last, known, same | more⟩
      · rw [none, zero]
        rfl
      · rw [known, same]
        rfl
      · omega
  · rw [climbed, Chain.called, fellbacks_append, silent, List.append_nil, Chain.enter]
    split
    · rename_i later
      rw [announced_concat, fellbacks_append, spoken.spoken, ← spoken.known,
        label_eq here later, ← spoken.count]
      rfl
    · rw [List.append_nil]
      exact spoken.spoken
  · rw [climbed, List.length_append, ← spoken.count, Chain.called, Chain.enter]
    split <;> rfl
  · intro move among
    rw [consecutive_concat, List.mem_append, Option.mem_toList, Option.map_eq_some_iff] at among
    rcases among with before | ⟨last, known, rfl⟩
    · exact spoken.steps move before
    · rcases next with ⟨none, -⟩ | ⟨last', known', apart⟩
      · rw [none] at known
        cases known
      · rw [known'] at known
        cases known
        exact apart

def Stalls (places : List Nat) (place : Nat) : Prop := (place, place) ∈ consecutive places

theorem announces_iff (spoken : Spoken env places lastModelId attempt events) :
    fellbacks events = announced env (moves places) ↔
      ∀ place, Stalls places place → place = 0 := by
  rw [spoken.spoken, moves, climbs]
  constructor
  · intro same place stalls
    have lengths := congrArg List.length same
    rw [announced_length, announced_length] at lengths
    by_contra later
    have fewer : ((consecutive places).filter fun move => move.1 ≠ move.2).length <
        ((consecutive places).filter fun move => 0 < move.2).length := by
      have split : (consecutive places).filter (fun move => move.1 ≠ move.2) =
          ((consecutive places).filter fun move => 0 < move.2).filter
            fun move => move.1 ≠ move.2 := by
        rw [List.filter_filter]
        refine List.filter_congr fun move among => ?_
        have step := spoken.steps move among
        simp only [← Bool.decide_and, decide_eq_decide]
        omega
      rw [split]
      refine List.length_filter_lt_length_iff_exists.mpr ⟨(place, place), ?_, by simp⟩
      exact List.mem_filter.mpr ⟨stalls, by simpa using Nat.pos_of_ne_zero later⟩
    omega
  · intro first
    refine congrArg (announced env) (List.filter_congr fun move among => ?_)
    obtain ⟨here, there⟩ := move
    have step := spoken.steps _ among
    have stall : here = there → there = 0 := by
      rintro rfl
      exact first here among
    simp only [decide_eq_decide]
    simp only at step
    omega

/-- The position at which the base request is found over-window first, when the candidates
are called in turn. -/
def firstOverflow (env : FallbackChainEnv) : List Provider → Nat → Option Nat
  | [], _ => none
  | candidate :: rest, place =>
    match (runAttempt (candidate.stream env.baseRequest place)).verdict with
    | .silent => firstOverflow env rest (place + 1)
    | .failed error =>
      if error.kind = .contextLength then some place
      else if isAgentFallbackEligible error env.fallbackPolicy = none then none
      else firstOverflow env rest (place + 1)
    | _ => none

/-- The buffer shrinks, so that a retry is made. -/
def Shrinks (env : FallbackChainEnv) : Prop :=
  (tryEmergencyCompact env.compaction env.messages).isSome

/-- Where the loop stands with its retry. -/
inductive Phase (env : FallbackChainEnv) (chain : Chain) : Prop
  | fresh (tried : chain.emergencyCompactTried = false)
      (request : chain.requestForStep = env.baseRequest)
      (calls : chain.calls.length = chain.chainIdx)
      (last : (positions chain.calls).getLast? =
        if chain.chainIdx = 0 then none else some (chain.chainIdx - 1))
      (stalls : ∀ place, ¬ Stalls (positions chain.calls) place)
      (overflow : firstOverflow env (env.fallbackChain.drop chain.chainIdx) chain.chainIdx =
        firstOverflow env env.fallbackChain 0)
  | refused (tried : chain.emergencyCompactTried = true) (refusal : ¬ Shrinks env)
      (calls : chain.calls.length = chain.chainIdx) (later : 0 < chain.chainIdx)
      (last : (positions chain.calls).getLast? = some (chain.chainIdx - 1))
      (stalls : ∀ place, ¬ Stalls (positions chain.calls) place)
  | again (tried : chain.emergencyCompactTried = true) (shrinks : Shrinks env)
      (overflow : firstOverflow env env.fallbackChain 0 = some chain.chainIdx)
      (calls : chain.calls.length = chain.chainIdx + 1)
      (last : (positions chain.calls).getLast? = some chain.chainIdx)
      (stalls : ∀ place, ¬ Stalls (positions chain.calls) place)
      (left : chain.chainIdx < env.fallbackChain.length)
  | resumed (place : Nat) (tried : chain.emergencyCompactTried = true)
      (shrinks : Shrinks env)
      (overflow : firstOverflow env env.fallbackChain 0 = some place)
      (calls : chain.calls.length = chain.chainIdx + 1) (later : 0 < chain.chainIdx)
      (last : (positions chain.calls).getLast? = some (chain.chainIdx - 1))
      (stalls : ∀ place', Stalls (positions chain.calls) place' ↔ place' = place)

def attemptAt (env : FallbackChainEnv) (number : Nat) (call : Nat × ProviderRequest) :
    Option AttemptRun :=
  env.fallbackChain[call.1]?.map fun candidate => runAttempt (candidate.stream call.2 number)

/-- The loop goes on after such an attempt. -/
def Verdict.Passes : Verdict → Prop
  | .silent => True
  | .failed _ => True
  | _ => False

structure Walked (env : FallbackChainEnv) (chain : Chain) : Prop where
  spoken : Spoken env (positions chain.calls) chain.lastModelId chain.attempt chain.events
  within : chain.chainIdx ≤ env.fallbackChain.length
  phase : Phase env chain
  past : ∀ number call, chain.calls[number]? = some call →
    ∃ run, attemptAt env number call = some run ∧ run.verdict.Passes

theorem Phase.next (phase : Phase env chain) :
    Next (positions chain.calls) chain.chainIdx := by
  cases phase with
  | fresh _ _ _ last =>
    rw [Next, last]
    split
    · rename_i zero
      exact .inl ⟨rfl, zero⟩
    · exact .inr ⟨_, rfl, .inr (by omega)⟩
  | refused _ _ _ later last => exact .inr ⟨_, last, .inr (by omega)⟩
  | again _ _ _ _ last => exact .inr ⟨_, last, .inl rfl⟩
  | resumed _ _ _ _ _ later last => exact .inr ⟨_, last, .inr (by omega)⟩

theorem Phase.calls_le (phase : Phase env chain) :
    chain.calls.length ≤ chain.chainIdx + 1 := by
  cases phase with
  | fresh _ _ calls => exact calls.le.trans (Nat.le_succ _)
  | refused _ _ calls => exact calls.le.trans (Nat.le_succ _)
  | again _ _ _ calls => exact calls.le
  | resumed _ _ _ _ calls => exact calls.le

theorem stalls_concat (places : List Nat) (place place' : Nat) :
    Stalls (places ++ [place]) place' ↔
      Stalls places place' ∨ places.getLast? = some place' ∧ place' = place := by
  rw [Stalls, consecutive_concat, List.mem_append, Option.mem_toList, Option.map_eq_some_iff,
    Stalls]
  refine or_congr_right ⟨?_, ?_⟩
  · rintro ⟨last, known, same⟩
    cases same
    exact ⟨known, rfl⟩
  · rintro ⟨known, rfl⟩
    exact ⟨place', known, rfl⟩

theorem stalls_other (other : places.getLast? ≠ some place) (place' : Nat) :
    Stalls (places ++ [place]) place' ↔ Stalls places place' := by
  rw [stalls_concat]
  refine or_iff_left ?_
  rintro ⟨same, rfl⟩
  exact other same

theorem other_of_before (later : 0 < place) (last : places.getLast? = some (place - 1)) :
    places.getLast? ≠ some place := by
  rw [last]
  intro same
  have same := Option.some.inj same
  omega

theorem other_of_fresh
    (last : places.getLast? = if place = 0 then none else some (place - 1)) :
    places.getLast? ≠ some place := by
  split at last
  · rw [last]
    exact nofun
  · exact other_of_before (by omega) last

theorem called_calls (env : FallbackChainEnv) (chain : Chain) (candidate : Provider) :
    positions (chain.called env candidate).calls =
      positions chain.calls ++ [chain.chainIdx] := by
  have kept : (chain.enter env candidate).calls = chain.calls := by
    rw [Chain.enter]
    split <;> rfl
  rw [Chain.called, kept, positions, List.map_append]
  rfl

theorem called_tried (env : FallbackChainEnv) (chain : Chain) (candidate : Provider) :
    (chain.called env candidate).emergencyCompactTried = chain.emergencyCompactTried := by
  rw [Chain.called, Chain.enter]
  split <;> rfl

theorem called_chainIdx (env : FallbackChainEnv) (chain : Chain) (candidate : Provider) :
    (chain.called env candidate).chainIdx = chain.chainIdx := by
  rw [Chain.called, Chain.enter]
  split <;> rfl

theorem called_request (env : FallbackChainEnv) (chain : Chain) (candidate : Provider) :
    (chain.called env candidate).requestForStep = chain.requestForStep := by
  rw [Chain.called, Chain.enter]
  split <;> rfl

/-- What a call settles of the retry, whatever comes of it. -/
inductive Called (env : FallbackChainEnv) (chain : Chain) (places : List Nat) : Prop
  | plain (stalls : ∀ place, ¬ Stalls places place)
      (retry : chain.emergencyCompactTried = false ∨ ¬ Shrinks env)
  | stalled (place : Nat) (shrinks : Shrinks env)
      (overflow : firstOverflow env env.fallbackChain 0 = some place)
      (stalls : ∀ place', Stalls places place' ↔ place' = place)

theorem Phase.called (phase : Phase env chain) :
    Called env chain (positions chain.calls ++ [chain.chainIdx]) := by
  cases phase with
  | fresh tried _ _ last stalls =>
    refine .plain (fun place stall => ?_) (.inl tried)
    exact stalls place ((stalls_other (other_of_fresh last) place).mp stall)
  | refused _ refusal _ later last stalls =>
    refine .plain (fun place stall => ?_) (.inr refusal)
    exact stalls place ((stalls_other (other_of_before later last) place).mp stall)
  | again _ shrinks overflow _ last stalls =>
    refine .stalled chain.chainIdx shrinks overflow fun place' => ?_
    rw [stalls_concat, last]
    constructor
    · rintro (stall | ⟨-, same⟩)
      · exact absurd stall (stalls place')
      · exact same
    · rintro rfl
      exact .inr ⟨rfl, rfl⟩
  | resumed place _ shrinks overflow _ later last stalls =>
    exact .stalled place shrinks overflow fun place' =>
      (stalls_other (other_of_before later last) place').trans (stalls place')

/-- What is returned is what the attempt left, if it was completed, and nothing of any
attempt but its usage otherwise. -/
structure Commits (run : AttemptRun) (outcome : ProviderChainOutcome) : Prop where
  completes : outcome.modelSucceeded = true ↔ run.verdict = .completed
  commits : outcome.modelSucceeded = true →
    outcome =
      { modelSucceeded := true
        textBuffer := run.attempt.evState.textBuffer
        finalCalls := run.attempt.evState.finalCalls
        stepReasoningParts := reasoningParts run.attempt.evState
        stepUsage := run.attempt.usage
        lastModelId := outcome.lastModelId
        finishReason := run.attempt.finishReason }
  otherwise : outcome.modelSucceeded = false →
    outcome.textBuffer = "" ∧ outcome.finalCalls = [] ∧ outcome.stepReasoningParts = [] ∧
      outcome.finishReason = none ∧
        (outcome.stepUsage = zeroUsage ∨ outcome.stepUsage = run.attempt.usage)

/-- The outcome is that of the last call, under its candidate's model id; all calls before
it failed or ended silently. -/
def FromOneAttempt (env : FallbackChainEnv) (run : ChainRun) : Prop :=
  run.calls = [] ∧ run.outcome = { lastModelId := env.resolvedModelId } ∨
    ∃ before call attempt, run.calls = before ++ [call] ∧
      attemptAt env before.length call = some attempt ∧
        run.outcome.lastModelId = label env call.1 ∧ Commits attempt run.outcome ∧
          ∀ number call, before[number]? = some call →
            ∃ attempt, attemptAt env number call = some attempt ∧ attempt.verdict.Passes

structure Settled (env : FallbackChainEnv) (run : ChainRun) : Prop where
  few : run.calls.length ≤ env.fallbackChain.length + 1
  one : FromOneAttempt env run
  announces : Announces env run ↔
    ∀ place, firstOverflow env env.fallbackChain 0 = some place → Shrinks env → place = 0

theorem addUsage_zero (usage : Usage) : addUsage zeroUsage usage = usage := by
  obtain ⟨prompt, completion, total, reasoning, read, write, cost⟩ := usage
  have sum (amount : Option Rat) : optionalSum none amount = amount := by
    cases amount with
    | none => rfl
    | some amount => exact congrArg some (zero_add amount)
  have price : addCost none cost = cost := by cases cost <;> rfl
  simp only [addUsage, zeroUsage, zero_add, sum, price]

theorem Phase.overflow (phase : Phase env chain)
    (tried : chain.emergencyCompactTried = false)
    (here : env.fallbackChain[chain.chainIdx]? = some candidate) :
    firstOverflow env env.fallbackChain 0 =
      match (chain.call env candidate).verdict with
      | .silent =>
        firstOverflow env (env.fallbackChain.drop (chain.chainIdx + 1)) (chain.chainIdx + 1)
      | .failed error =>
        if error.kind = .contextLength then some chain.chainIdx
        else if isAgentFallbackEligible error env.fallbackPolicy = none then none
        else
          firstOverflow env (env.fallbackChain.drop (chain.chainIdx + 1))
            (chain.chainIdx + 1)
      | _ => none := by
  cases phase with
  | fresh _ request calls _ _ overflow =>
    obtain ⟨within, rfl⟩ := List.getElem?_eq_some_iff.mp here
    have entered (candidate : Provider) :
        (chain.enter env candidate).requestForStep = env.baseRequest := by
      rw [Chain.enter]
      split <;> exact request
    rw [← overflow, List.drop_eq_getElem_cons within, firstOverflow, Chain.call, entered, calls]
  | refused tried' => cases tried.symm.trans tried'
  | again tried' => cases tried.symm.trans tried'
  | resumed _ tried' => cases tried.symm.trans tried'

theorem called_attempt (here : env.fallbackChain[chain.chainIdx]? = some candidate) :
    ∃ call, (chain.called env candidate).calls = chain.calls ++ [call] ∧
      call.1 = chain.chainIdx ∧
        attemptAt env chain.calls.length call = some (chain.call env candidate) := by
  refine ⟨(chain.chainIdx, (chain.enter env candidate).requestForStep), ?_, rfl, ?_⟩
  · have kept : (chain.enter env candidate).calls = chain.calls := by
      rw [Chain.enter]
      split <;> rfl
    rw [Chain.called, kept]
  · rw [attemptAt, here]
    rfl

theorem Walked.settled (walked : Walked env chain)
    (here : env.fallbackChain[chain.chainIdx]? = some candidate)
    (calls : run.calls = (chain.called env candidate).calls)
    (events : fellbacks run.events = fellbacks (chain.called env candidate).events)
    (model : run.outcome.lastModelId = (chain.called env candidate).lastModelId)
    (commits : Commits (chain.call env candidate) run.outcome)
    (retry : chain.emergencyCompactTried = false → Shrinks env →
      firstOverflow env env.fallbackChain 0 = none)
    : Settled env run := by
  have spoken := walked.spoken.called walked.phase.next here
  obtain ⟨within, -⟩ := List.getElem?_eq_some_iff.mp here
  obtain ⟨call, callsAre, place, attempt⟩ := called_attempt here
  refine ⟨?_, .inr ⟨chain.calls, call, _, calls.trans callsAre, attempt, ?_, commits,
    walked.past⟩, ?_⟩
  · rw [calls, callsAre, List.length_append, List.length_singleton]
    cases walked.phase with
    | fresh => omega
    | refused => omega
    | again => omega
    | resumed => omega
  · rw [model, spoken.known, List.getLast?_concat, Option.getD_some, place]
  · rw [Announces, events, calls, called_calls, announces_iff spoken]
    cases walked.phase.called with
    | plain stalls untried =>
      refine iff_of_true (fun place stall => absurd stall (stalls place)) ?_
      intro place overflow shrinks
      rcases untried with untried | refusal
      · rw [retry untried shrinks] at overflow
        cases overflow
      · exact absurd shrinks refusal
    | stalled place shrinks overflow stalls =>
      rw [overflow]
      constructor
      · intro first place' same _
        cases same
        exact first place ((stalls place).mpr rfl)
      · intro first place' stall
        rw [(stalls place').mp stall]
        exact first place rfl shrinks

theorem Walked.exhausted (walked : Walked env chain)
    (none : env.fallbackChain[chain.chainIdx]? = none) :
    Settled env (chain.ends { lastModelId := chain.lastModelId }) := by
  have past := List.getElem?_eq_none_iff.mp none
  have end' : chain.chainIdx = env.fallbackChain.length :=
    Nat.le_antisymm walked.within past
  have few := walked.phase.calls_le
  rw [end'] at few
  refine ⟨few, ?_, ?_⟩
  · rcases List.eq_nil_or_concat chain.calls with empty | ⟨before, call, joined⟩
    · refine .inl ⟨empty, ?_⟩
      have known := walked.spoken.known
      rw [empty] at known
      rw [Chain.ends, known]
      rfl
    · rw [List.concat_eq_append] at joined
      have known := walked.spoken.known
      have here : chain.calls[before.length]? = some call := by
        rw [joined, List.getElem?_concat_length]
      obtain ⟨attempt, attemptIs, passes⟩ := walked.past before.length call here
      rw [joined, positions, List.map_append, List.map_singleton, List.getLast?_concat] at known
      refine .inr ⟨before, call, attempt, joined, attemptIs, known, ?_, ?_⟩
      · refine ⟨iff_of_false Bool.false_ne_true fun completed => ?_, nofun,
          fun _ => ⟨rfl, rfl, rfl, rfl, .inl rfl⟩⟩
        rw [completed] at passes
        exact passes
      · intro number call' known'
        refine walked.past number call' ?_
        rw [joined, List.getElem?_append_left (List.getElem?_eq_some_iff.mp known').1]
        exact known'
  · rw [Announces, Chain.ends, announces_iff walked.spoken]
    cases walked.phase with
    | fresh _ _ _ _ stalls overflow =>
      refine iff_of_true (fun place stall => absurd stall (stalls place)) ?_
      intro place overflow'
      rw [← overflow, end', List.drop_length] at overflow'
      cases overflow'
    | refused _ refusal _ _ _ stalls =>
      exact iff_of_true (fun place stall => absurd stall (stalls place))
        fun _ _ shrinks => absurd shrinks refusal
    | again => omega
    | resumed place _ shrinks overflow _ _ _ stalls =>
      rw [overflow]
      constructor
      · intro first place' same _
        cases same
        exact first place ((stalls place).mpr rfl)
      · intro first place' stall
        rw [(stalls place').mp stall]
        exact first place rfl shrinks

variable {chain' : Chain}

theorem Walked.passed (walked : Walked env chain)
    (here : env.fallbackChain[chain.chainIdx]? = some candidate)
    (calls : chain'.calls = (chain.called env candidate).calls)
    (model : chain'.lastModelId = (chain.called env candidate).lastModelId)
    (attempt : chain'.attempt = (chain.called env candidate).attempt)
    (events : fellbacks chain'.events = fellbacks (chain.called env candidate).events)
    (within : chain'.chainIdx ≤ env.fallbackChain.length)
    (passes : (chain.call env candidate).verdict.Passes) (phase : Phase env chain') :
    Walked env chain' := by
  have spoken := walked.spoken.called walked.phase.next here
  obtain ⟨call, callsAre, -, attemptIs⟩ := called_attempt here
  refine ⟨?_, within, phase, ?_⟩
  · rw [calls, called_calls, model, attempt]
    exact ⟨spoken.known, events.trans spoken.spoken, spoken.count, spoken.steps⟩
  · intro number call' known
    rw [calls, callsAre, List.getElem?_append] at known
    split at known
    · exact walked.past number call' known
    · rename_i later
      obtain ⟨first, same⟩ := List.getElem?_eq_some_iff.mp known
      rw [List.length_singleton] at first
      have number : number = chain.calls.length := by omega
      rw [List.getElem_singleton] at same
      exact ⟨_, by rw [number, ← same]; exact attemptIs, passes⟩

theorem length_of_positions {called calls : List (Nat × ProviderRequest)}
    (more : positions called = positions calls ++ [place]) :
    called.length = calls.length + 1 := by
  have lengths := congrArg List.length more
  rwa [positions, List.length_map, List.length_append, positions, List.length_map] at lengths

/-- Without a retry so far, the candidate's call does not stall. -/
theorem Phase.untried (phase : Phase env chain)
    (untried : chain.emergencyCompactTried = false)
    (more : positions calls' = positions chain.calls ++ [chain.chainIdx]) :
    calls'.length = chain.chainIdx + 1 ∧ ∀ place, ¬ Stalls (positions calls') place := by
  cases phase with
  | fresh _ _ calls last stalls =>
    refine ⟨calls ▸ length_of_positions more, fun place stall => ?_⟩
    rw [more] at stall
    exact stalls place ((stalls_other (other_of_fresh last) place).mp stall)
  | refused tried => cases untried.symm.trans tried
  | again tried => cases untried.symm.trans tried
  | resumed _ tried => cases untried.symm.trans tried

theorem Phase.moved (phase : Phase env chain)
    (calls : positions chain'.calls = positions chain.calls ++ [chain.chainIdx])
    (place : chain'.chainIdx = chain.chainIdx + 1)
    (request : chain'.requestForStep = chain.requestForStep)
    (tried : chain'.emergencyCompactTried = chain.emergencyCompactTried)
    (overflow : chain.emergencyCompactTried = false →
      firstOverflow env (env.fallbackChain.drop chain'.chainIdx) chain'.chainIdx =
        firstOverflow env env.fallbackChain 0)
    : Phase env chain' := by
  have length := length_of_positions calls
  have last : (positions chain'.calls).getLast? = some (chain'.chainIdx - 1) := by
    rw [calls, List.getLast?_concat, place, Nat.add_sub_cancel]
  cases phase with
  | fresh untried request' _ last' stalls =>
    refine .fresh (tried.trans untried) (request.trans request') (by omega) ?_ ?_
      (overflow untried)
    · rw [last, if_neg (by omega)]
    · intro place' stall
      rw [calls] at stall
      exact stalls place' ((stalls_other (other_of_fresh last') place').mp stall)
  | refused tried' refusal _ later last' stalls =>
    refine .refused (tried.trans tried') refusal (by omega) (by omega) last ?_
    intro place' stall
    rw [calls] at stall
    exact stalls place' ((stalls_other (other_of_before later last') place').mp stall)
  | again tried' shrinks overflow' _ last' stalls =>
    refine .resumed chain.chainIdx (tried.trans tried') shrinks overflow' (by omega) (by omega)
      last fun place' => ?_
    rw [calls, stalls_concat, last']
    constructor
    · rintro (stall | ⟨-, same⟩)
      · exact absurd stall (stalls place')
      · exact same
    · rintro rfl
      exact .inr ⟨rfl, rfl⟩
  | resumed place' tried' shrinks overflow' _ later last' stalls =>
    refine .resumed place' (tried.trans tried') shrinks overflow' (by omega) (by omega) last
      fun place'' => ?_
    rw [calls]
    exact (stalls_other (other_of_before later last') place'').trans (stalls place'')

theorem compacted_quiet {env : CompactionRunEnv} {messages messages' : List Message}
    {event : AgentEvent} (shrunk : tryEmergencyCompact env messages = some (messages', event)) :
    event.fellback? = none := by
  rw [tryEmergencyCompact] at shrunk
  split at shrunk
  · cases shrunk
  · obtain ⟨compactNow, -, shrunk⟩ := Option.bind_eq_some_iff.mp shrunk
    obtain ⟨envelope, -, shrunk⟩ := Option.bind_eq_some_iff.mp shrunk
    split at shrunk
    · cases shrunk
    · cases shrunk
      rfl

/-- The candidate is called again, for the first and only time. -/
theorem Phase.retried (phase : Phase env chain)
    (untried : chain.emergencyCompactTried = false) (shrinks : Shrinks env)
    (calls : positions chain'.calls = positions chain.calls ++ [chain.chainIdx])
    (place : chain'.chainIdx = chain.chainIdx) (tried : chain'.emergencyCompactTried = true)
    (left : chain.chainIdx < env.fallbackChain.length)
    (overflow : firstOverflow env env.fallbackChain 0 = some chain.chainIdx) :
    Phase env chain' := by
  obtain ⟨length, stalls⟩ := phase.untried untried calls
  refine .again tried shrinks (place ▸ overflow) (place ▸ length) ?_ stalls (place ▸ left)
  rw [calls, List.getLast?_concat, place]

theorem Phase.declined (phase : Phase env chain)
    (untried : chain.emergencyCompactTried = false) (refusal : ¬ Shrinks env)
    (calls : positions chain'.calls = positions chain.calls ++ [chain.chainIdx])
    (place : chain'.chainIdx = chain.chainIdx + 1)
    (tried : chain'.emergencyCompactTried = true) : Phase env chain' := by
  obtain ⟨length, stalls⟩ := phase.untried untried calls
  refine .refused tried refusal (length.trans place.symm) (by omega) ?_ stalls
  rw [calls, List.getLast?_concat, place, Nat.add_sub_cancel]

/-- What is still to be called, the retry included. -/
def Chain.left (env : FallbackChainEnv) (chain : Chain) : Nat :=
  env.fallbackChain.length - chain.chainIdx + if chain.emergencyCompactTried then 0 else 1

def Turned (env : FallbackChainEnv) (chain : Chain) : Chain ⊕ ChainRun → Prop
  | .inl chain' => Walked env chain' ∧ chain'.left env < chain.left env
  | .inr run => Settled env run

theorem Walked.settleError {called : Chain} (walked : Walked env chain)
    (here : env.fallbackChain[chain.chainIdx]? = some candidate) {error : ProviderError}
    (verdict : (chain.call env candidate).verdict = .failed error)
    (calls : called.calls = (chain.called env candidate).calls)
    (model : called.lastModelId = (chain.called env candidate).lastModelId)
    (attempt : called.attempt = (chain.called env candidate).attempt)
    (events : called.events = (chain.called env candidate).events)
    (place : called.chainIdx = chain.chainIdx)
    (retry : chain.emergencyCompactTried = false → Shrinks env → error.kind ≠ .contextLength)
    (left : chain.emergencyCompactTried = true → called.emergencyCompactTried = true)
    (phase : isAgentFallbackEligible error env.fallbackPolicy ≠ none →
      Phase env { called with chainIdx := called.chainIdx + 1 }) :
    Turned env chain (called.settleError env error) := by
  obtain ⟨within, -⟩ := List.getElem?_eq_some_iff.mp here
  have passes : (chain.call env candidate).verdict.Passes := by
    rw [verdict]
    trivial
  rw [Chain.settleError]
  split
  · rename_i ends
    refine walked.settled here calls ?_ model ?_ ?_
    · rw [Chain.fails, fellbacks_append, events]
      exact List.append_nil _
    · refine ⟨iff_of_false Bool.false_ne_true ?_, nofun,
        fun _ => ⟨rfl, rfl, rfl, rfl, .inl rfl⟩⟩
      rw [verdict]
      exact nofun
    · intro untried shrinks
      rw [walked.phase.overflow untried here, verdict]
      simp only [if_neg (retry untried shrinks)]
      split
      · rfl
      · rename_i eligible
        rcases ends with refused | last
        · exact absurd refused eligible
        · rw [← place, last, List.drop_length]
          rfl
  · rename_i goes
    rw [not_or] at goes
    refine ⟨walked.passed here calls model attempt (congrArg fellbacks events) ?_ passes
      (phase goes.1), ?_⟩
    · rw [place]
      exact within
    · rw [Chain.left, Chain.left, place]
      cases tried : chain.emergencyCompactTried with
      | false =>
        split <;> simp <;> omega
      | true =>
        rw [left tried]
        simp
        omega

theorem Walked.step {env : FallbackChainEnv} {chain : Chain} (walked : Walked env chain) :
    Turned env chain (chain.step env) := by
  rw [Chain.step]
  split
  · rename_i none
    exact walked.exhausted none
  · rename_i candidate here
    obtain ⟨within, -⟩ := List.getElem?_eq_some_iff.mp here
    have calls := called_calls env chain candidate
    have place := called_chainIdx env chain candidate
    have request := called_request env chain candidate
    have tried := called_tried env chain candidate
    have overflow (untried : chain.emergencyCompactTried = false) :=
      walked.phase.overflow untried here
    simp only
    split
    · rename_i verdict
      refine walked.settled here rfl rfl rfl ?_ fun untried _ => ?_
      · refine ⟨iff_of_false Bool.false_ne_true ?_, nofun,
          fun _ => ⟨rfl, rfl, rfl, rfl, .inl rfl⟩⟩
        rw [verdict]
        exact nofun
      · rw [overflow untried, verdict]
    · rename_i error verdict
      have passes : (chain.call env candidate).verdict.Passes := by
        rw [verdict]
        trivial
      split
      · rename_i overflows
        obtain ⟨kind, untried⟩ := overflows
        have untried := tried.symm.trans untried
        split
        · rename_i messages event shrunk
          have shrinks : Shrinks env := by
            rw [Shrinks, shrunk]
            rfl
          refine ⟨walked.passed here rfl rfl rfl ?_ (place.le.trans walked.within) passes
            (walked.phase.retried untried shrinks calls place rfl within ?_), ?_⟩
          · have quiet := compacted_quiet shrunk
            rw [fellbacks_append, fellbacks, fellbacks, List.filterMap_cons_none quiet]
            exact List.append_nil _
          · rw [overflow untried, verdict]
            exact if_pos kind
          · rw [Chain.left, Chain.left, untried]
            simp only [place]
            exact Nat.lt_succ_self _
        · rename_i none
          have refusal : ¬ Shrinks env := by
            rw [Shrinks, none]
            exact Bool.false_ne_true
          exact walked.settleError here verdict rfl rfl rfl rfl place
            (fun _ shrinks => absurd shrinks refusal) (fun _ => rfl) fun _ =>
              walked.phase.declined untried refusal calls (congrArg (· + 1) place) rfl
      · rename_i otherwise
        have other (untried : chain.emergencyCompactTried = false) :
            error.kind ≠ .contextLength := fun kind =>
          otherwise ⟨kind, tried.trans untried⟩
        refine walked.settleError here verdict rfl rfl rfl rfl place
          (fun untried _ => other untried) tried.trans fun eligible => ?_
        refine walked.phase.moved calls (congrArg (· + 1) place) request tried fun untried => ?_
        rw [overflow untried, verdict]
        simp only [if_neg (other untried), if_neg eligible, place]
    · rename_i unclosed verdict
      refine walked.settled here rfl ?_ rfl ?_ fun untried _ => ?_
      · have quiet : fellbacks (unclosed.map (ToolCallAccumulator.cut
            ((chain.call env candidate).attempt.finishReason.getD .stop))) = [] := by
          rw [fellbacks, List.filterMap_map]
          exact List.filterMap_eq_nil_iff.mpr fun _ _ => rfl
        rw [Chain.fails, fellbacks_append, fellbacks_append, quiet, List.append_nil]
        exact List.append_nil _
      · refine ⟨iff_of_false Bool.false_ne_true ?_, nofun,
          fun _ => ⟨rfl, rfl, rfl, rfl, .inr (addUsage_zero _)⟩⟩
        rw [verdict]
        exact nofun
      · rw [overflow untried, verdict]
    · rename_i verdict
      refine walked.settled here rfl rfl rfl ?_ fun untried _ => ?_
      · refine ⟨iff_of_true rfl verdict, fun _ => ?_, nofun⟩
        rw [Chain.ends, addUsage_zero]
      · rw [overflow untried, verdict]
    · rename_i verdict
      refine ⟨walked.passed here rfl rfl rfl rfl ?_ ?_ ?_, ?_⟩
      · rw [place]
        exact within
      · rw [verdict]
        trivial
      · refine walked.phase.moved calls (congrArg (· + 1) place) request tried fun untried => ?_
        rw [overflow untried, verdict]
        simp only [place]
      · rw [Chain.left, Chain.left]
        simp only [tried, place]
        omega

theorem Walked.walk (walked : Walked env chain) (enough : chain.left env < fuel) :
    ∃ run, chain.walk env fuel = some run ∧ Settled env run := by
  induction fuel generalizing chain with
  | zero => omega
  | succ _ ih =>
    have turned := walked.step
    rw [Chain.walk]
    cases turn : chain.step env with
    | inl =>
      rw [turn] at turned
      exact ih turned.1 (by have less := turned.2; omega)
    | inr run =>
      rw [turn] at turned
      exact ⟨run, rfl, turned⟩

theorem walked_start (env : FallbackChainEnv) : Walked env (Chain.start env) where
  spoken := ⟨rfl, rfl, rfl, nofun⟩
  within := Nat.zero_le _
  phase := .fresh rfl rfl rfl rfl nofun rfl
  past := nofun

/-- The chain ends after at most one call more than it has candidates, with the outcome of
the last one; its announcements are its moves exactly when the retry after an emergency
compaction, if there is one, is the primary's. -/
theorem fallback_chain_commits (env : FallbackChainEnv) :
    ∃ run, runProviderFallbackChain env = some run ∧
      run.calls.length ≤ env.fallbackChain.length + 1 ∧ FromOneAttempt env run ∧
        (Announces env run ↔
          ∀ place, firstOverflow env env.fallbackChain 0 = some place → Shrinks env →
            place = 0) := by
  obtain ⟨run, walked, settled⟩ := (walked_start env).walk (Nat.lt_succ_self _)
  exact ⟨run, walked, settled.few, settled.one, settled.announces⟩

/-- A rate limit at the primary, then an overflow behind it: the retry of the second
candidate is announced as a second fallback, from the candidate to itself. -/
def overflowBehind : FallbackChainEnv where
  messages := [.user "a", .user "b"]
  compaction :=
    { compactNow := some fun _ body => some ⟨body.drop 1, [0], "", 2, 1, 0⟩
      secret := false
      systemPrefixLength := 0 }
  fallbackChain :=
    [{ modelId := "large"
       stream := fun _ _ => { events := [(.error ⟨.rateLimit, "slow down"⟩, false)] } },
     { modelId := "small"
       stream := fun request _ =>
         if request.messages.length < 2 then { events := [(.finish .stop zeroUsage, false)] }
         else { events := [(.error ⟨.contextLength, "too long"⟩, false)] } }]
  baseRequest := ⟨[.user "a", .user "b"], .null⟩
  resolvedModelId := "large"
  stepNumber := 1

theorem overflowBehind_announces :
    (runProviderFallbackChain overflowBehind).map (fun run => fellbacks run.events) =
        some [("large", "small", 1), ("small", "small", 2)] ∧
      ¬ ∀ run, runProviderFallbackChain overflowBehind = some run →
        Announces overflowBehind run := by
  refine ⟨by decide, fun all => ?_⟩
  have moved : ∃ run, runProviderFallbackChain overflowBehind = some run ∧
      ¬ Announces overflowBehind run := ⟨_, rfl, by decide⟩
  obtain ⟨run, walked, differs⟩ := moved
  exact differs (all run walked)

end Graphorin.Agent.Fallback
