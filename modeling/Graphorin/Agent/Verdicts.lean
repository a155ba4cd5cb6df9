import Graphorin.Agent.Types
import Graphorin.Lib.OrderedMap
import Mathlib.Data.List.Induction

namespace Graphorin.Agent

open Graphorin.Lib (OrderedMap)

/-! The verdict sidecar of a run: what the security gates found on its turns, kept
beside the transcript while compaction rewrites it. -/

inductive GuardrailVerdict
  | passed
  | rewritten (value : String)
  | blocked (name message : String)
deriving DecidableEq

inductive TurnGuardrail
  | rewrite
  | block
  deriving DecidableEq

structure RunTurnVerdict where
  guardrail : Option TurnGuardrail := none
  lateralLeak : Bool := false
  dataflowFlags : List String := []
  deriving DecidableEq

/-- A key `'<stepNumber>:<offsetInStep>'`. -/
structure Turn where
  stepNumber : Nat
  offset : Nat
  deriving DecidableEq

abbrev RunVerdicts := OrderedMap Turn RunTurnVerdict

namespace RunTurnVerdict

def mergeGuardrail (existing verdict : Option TurnGuardrail) :
    Option TurnGuardrail :=
  if existing = some .block ∨ verdict = some .block then some .block
  else verdict <|> existing

/-- `[...new Set([...existing, ...flags])]` -/
def mergeFlags (existing flags : List String) : List String :=
  (existing ++ flags).foldl (fun set flag =>
    if flag ∈ set then set else set ++ [flag]) []

def merge (existing : Option RunTurnVerdict) (verdict : RunTurnVerdict) :
    RunTurnVerdict where
  guardrail := mergeGuardrail (existing.bind RunTurnVerdict.guardrail) verdict.guardrail
  lateralLeak :=
    (existing.map RunTurnVerdict.lateralLeak).getD false || verdict.lateralLeak
  dataflowFlags := mergeFlags ((existing.map RunTurnVerdict.dataflowFlags).getD [])
    verdict.dataflowFlags

end RunTurnVerdict

/-- A message, and the turn it is: the object survives where its place does not. -/
structure TurnMessage where
  turn : Option Turn
  message : Message
  deriving DecidableEq

/-- What a compaction leaves of the messages it is given: one of them, perhaps
with its tool data cleared, or a message of its own. -/
inductive TrimmedMessage
  | kept (index : Nat) (message : Message)
  | fresh (message : Message)

def TrimmedMessage.resolve (body : List TurnMessage) : TrimmedMessage → TurnMessage
  | .kept index message => ⟨(body[index]?).bind TurnMessage.turn, message⟩
  | .fresh message => ⟨none, message⟩

/-- What the gates of a run see of it, with every stamp they have made. -/
structure GatedRun where
  messages : List TurnMessage
  stateMessages : List TurnMessage
  verdicts : Option RunVerdicts
  steps : List Nat
  systemPrefixLength : Nat
  stamps : List (Turn × RunTurnVerdict)

def lastStepNumber (steps : List Nat) : Nat := steps.foldl max 0

inductive FlowAction
  | allow
  | flag
  | declassify
  | block
  deriving DecidableEq

def FlowAction.name : FlowAction → String
  | .allow => "allow"
  | .flag => "flag"
  | .declassify => "declassify"
  | .block => "block"

structure OutputVerdict where
  action : FlowAction
  flow : Option String

def lateralLeakBlockedNotice : String :=
  "[graphorin] assistant commentary withheld by the lateral-leak defense."

def assistantOutputBlockedNotice : String :=
  "[graphorin] assistant reply withheld by the data-flow policy " ++
    "(assistant-output sink)."

namespace GatedRun

def stampTurnVerdict (run : GatedRun) (turn : Turn) (verdict : RunTurnVerdict) :
    GatedRun :=
  let verdicts := run.verdicts.getD .empty
  { run with
    verdicts := some (verdicts.set turn (verdict.merge (verdicts.get turn)))
    stamps := run.stamps ++ [(turn, verdict)] }

/-- Of a fresh run: every message of the buffer is a turn of the input stage. -/
def start (seeds : List Message) (systemPrefixLength : Nat) : GatedRun :=
  let messages : List TurnMessage :=
    seeds.mapIdx fun index message => ⟨some ⟨0, index⟩, message⟩
  ⟨messages, messages, none, [], systemPrefixLength, []⟩

def rewrite (run : GatedRun) (index : Nat) (message rewritten : TurnMessage) :
    GatedRun :=
  { run with
    messages := run.messages.set index rewritten
    stateMessages := run.stateMessages.map fun entry =>
      if entry = message then rewritten else entry }

def screenMessage (compose : Nat → String → GuardrailVerdict) (index : Nat)
    (run : GatedRun) : GatedRun × Bool :=
  match run.messages[index]? with
  | some ⟨turn, .user content⟩ =>
    match compose index content with
    | .blocked _ _ =>
      (run.stampTurnVerdict ⟨0, index⟩ { guardrail := some .block }, true)
    | .passed => (run, false)
    | .rewritten value =>
      if value = content then (run, false)
      else ((run.rewrite index ⟨turn, .user content⟩ ⟨turn, .user value⟩
        ).stampTurnVerdict ⟨0, index⟩ { guardrail := some .rewrite }, false)
  | _ => (run, false)

def screenInputGuardrails (compose : Nat → String → GuardrailVerdict) :
    List Nat → GatedRun → GatedRun
  | [], run => run
  | index :: rest, run =>
    match run.screenMessage compose index with
    | (run, true) => run
    | (run, false) => screenInputGuardrails compose rest run

def push (run : GatedRun) (message : Message) : GatedRun :=
  { run with
    messages := run.messages ++ [⟨none, message⟩]
    stateMessages := run.stateMessages ++ [⟨none, message⟩] }

def commitAssistantMessage (run : GatedRun) (textBuffer : String)
    (finalCalls : List ToolCall) (agentId : String) (leakBlocked : Bool)
    (outputVerdict : Option OutputVerdict) : GatedRun :=
  let stepNumber := lastStepNumber run.steps + 1
  let outputVerdict := if leakBlocked then none else outputVerdict
  let outputBlocked := outputVerdict.any (·.action = .block)
  let assistant : Message := .assistant
    (if leakBlocked then lateralLeakBlockedNotice
      else if outputBlocked then assistantOutputBlockedNotice
      else textBuffer) finalCalls agentId
  let turn : Turn := ⟨stepNumber, 0⟩
  let run := { run with
    messages := run.messages ++ [⟨some turn, assistant⟩]
    stateMessages := run.stateMessages ++ [⟨some turn, assistant⟩]
    steps := run.steps ++ [stepNumber] }
  let run :=
    if leakBlocked then run.stampTurnVerdict turn { lateralLeak := true } else run
  match outputVerdict with
  | none => run
  | some verdict =>
    if verdict.action = .allow then run
    else run.stampTurnVerdict turn
      { guardrail := if outputBlocked then some .block else none
        dataflowFlags := ("assistant-output:" ++ verdict.action.name) ::
          verdict.flow.toList.map fun flow => "assistant-output:" ++ flow }

def essentialsOf (essentials : String) : List TurnMessage :=
  if essentials = "" then [] else [⟨none, .system essentials⟩]

def rebuilt (run : GatedRun) (trimmed : List TrimmedMessage) (essentials : String) :
    List TurnMessage :=
  run.messages.take run.systemPrefixLength ++
    trimmed.map (TrimmedMessage.resolve (run.messages.drop run.systemPrefixLength)) ++
    essentialsOf essentials

def spliceCompacted (run : GatedRun) (trimmed : List TrimmedMessage)
    (essentials : String) : GatedRun :=
  let rebuilt := run.rebuilt trimmed essentials
  { run with
    messages := rebuilt
    stateMessages := rebuilt
    verdicts := run.verdicts.map fun _ => .empty }

/-- The output guardrails of `finalizeRunOutput`. -/
def screenOutput (run : GatedRun) (output : String) (composed : GuardrailVerdict) :
    GatedRun :=
  match composed with
  | .blocked _ _ =>
    run.stampTurnVerdict ⟨lastStepNumber run.steps, 0⟩ { guardrail := some .block }
  | .passed => run
  | .rewritten value =>
    if value = output then run
    else run.stampTurnVerdict ⟨lastStepNumber run.steps, 0⟩
      { guardrail := some .rewrite }

/-- A later leg works on the transcript the state was left with. -/
def resume (run : GatedRun) (systemPrefixLength : Nat) : GatedRun :=
  { run with
    messages := run.stateMessages
    systemPrefixLength := systemPrefixLength }

/-- `finalize`: the verdicts of the result. -/
def resultVerdicts (run : GatedRun) : RunVerdicts := run.verdicts.getD .empty

end GatedRun

inductive GateCall
  | screenInput (compose : Nat → String → GuardrailVerdict)
  | push (message : Message)
  | commit (textBuffer : String) (finalCalls : List ToolCall) (agentId : String)
      (leakBlocked : Bool) (outputVerdict : Option OutputVerdict)
  | compact (trimmed : List TrimmedMessage) (essentials : String)
  | screenOutput (output : String) (composed : GuardrailVerdict)
  | resume (systemPrefixLength : Nat)

namespace GatedRun

def step (run : GatedRun) : GateCall → GatedRun
  | .screenInput compose =>
    run.screenInputGuardrails compose (List.range run.messages.length)
  | .push message => run.push message
  | .commit textBuffer finalCalls agentId leakBlocked outputVerdict =>
    run.commitAssistantMessage textBuffer finalCalls agentId leakBlocked outputVerdict
  | .compact trimmed essentials => run.spliceCompacted trimmed essentials
  | .screenOutput output composed => run.screenOutput output composed
  | .resume systemPrefixLength => run.resume systemPrefixLength

def play (calls : List GateCall) (run : GatedRun) : GatedRun := calls.foldl step run

end GatedRun

/-- One verdict says all that another says. -/
structure RunTurnVerdict.AtLeast (strong weak : RunTurnVerdict) : Prop where
  guardrail : ∀ verdict, weak.guardrail = some verdict →
    ∃ verdict', strong.guardrail = some verdict' ∧ (verdict = .block → verdict' = .block)
  lateralLeak : weak.lateralLeak = true → strong.lateralLeak = true
  dataflowFlags : ∀ flag ∈ weak.dataflowFlags, flag ∈ strong.dataflowFlags

namespace RunTurnVerdict

theorem AtLeast.trans {first second third : RunTurnVerdict}
    (above : first.AtLeast second) (below : second.AtLeast third) :
    first.AtLeast third where
  guardrail := by
    intro verdict known
    obtain ⟨verdict', found, keeps⟩ := below.guardrail verdict known
    obtain ⟨verdict'', found', keeps'⟩ := above.guardrail verdict' found
    exact ⟨verdict'', found', fun block => keeps' (keeps block)⟩
  lateralLeak := fun leak => above.lateralLeak (below.lateralLeak leak)
  dataflowFlags := fun flag listed =>
    above.dataflowFlags flag (below.dataflowFlags flag listed)

theorem mem_mergeFlags {existing flags : List String} {flag : String} :
    flag ∈ mergeFlags existing flags ↔ flag ∈ existing ∨ flag ∈ flags := by
  suffices ∀ (listed set : List String),
      flag ∈ listed.foldl (fun set flag =>
        if flag ∈ set then set else set ++ [flag]) set ↔ flag ∈ set ∨ flag ∈ listed by
    rw [mergeFlags, this, List.mem_append]
    simp
  intro listed
  induction listed with
  | nil => simp
  | cons head rest ih =>
    intro set
    rw [List.foldl_cons, ih, List.mem_cons]
    split
    · rename_i present
      constructor
      · exact Or.imp_right .inr
      · rintro (member | rfl | later)
        · exact .inl member
        · exact .inl present
        · exact .inr later
    · rw [List.mem_append, List.mem_singleton, or_assoc]

variable {existing verdict : Option TurnGuardrail}

theorem mergeGuardrail_left (was : existing = some known) :
    ∃ merged, mergeGuardrail existing verdict = some merged ∧
      (known = .block → merged = .block) := by
  subst was
  rw [mergeGuardrail]
  split
  · exact ⟨.block, rfl, fun _ => rfl⟩
  · rename_i mild
    rw [not_or] at mild
    cases verdict with
    | none => exact ⟨known, rfl, id⟩
    | some next =>
      exact ⟨next, rfl, fun block => absurd (congrArg some block) mild.1⟩

theorem mergeGuardrail_right (is : verdict = some known) :
    ∃ merged, mergeGuardrail existing verdict = some merged ∧
      (known = .block → merged = .block) := by
  subst is
  rw [mergeGuardrail]
  split
  · exact ⟨.block, rfl, fun _ => rfl⟩
  · exact ⟨known, rfl, id⟩

theorem merge_new (existing : Option RunTurnVerdict) (verdict : RunTurnVerdict) :
    (merge existing verdict).AtLeast verdict where
  guardrail := fun _ known => mergeGuardrail_right known
  lateralLeak := fun leak => by simp [merge, leak]
  dataflowFlags := fun _ listed => mem_mergeFlags.mpr (.inr listed)

theorem merge_old (existing verdict : RunTurnVerdict) :
    (merge (some existing) verdict).AtLeast existing where
  guardrail := fun _ known => mergeGuardrail_left known
  lateralLeak := fun leak => by simp [merge, leak]
  dataflowFlags := fun _ listed => mem_mergeFlags.mpr (.inl listed)

/-- What the stamps of one turn come to. -/
def mergeAll (verdicts : List RunTurnVerdict) : Option RunTurnVerdict :=
  verdicts.foldl (fun merged verdict => some (merge merged verdict)) none

theorem mergeAll_append_singleton (verdicts : List RunTurnVerdict)
    (verdict : RunTurnVerdict) :
    mergeAll (verdicts ++ [verdict]) = some (merge (mergeAll verdicts) verdict) := by
  rw [mergeAll, List.foldl_append]
  rfl

theorem mergeAll_atLeast {verdicts : List RunTurnVerdict} {verdict : RunTurnVerdict}
    (listed : verdict ∈ verdicts) :
    ∃ merged, mergeAll verdicts = some merged ∧ merged.AtLeast verdict := by
  induction verdicts using List.reverseRecOn with
  | nil => cases listed
  | append_singleton earlier last ih =>
    refine ⟨_, mergeAll_append_singleton earlier last, ?_⟩
    rcases List.mem_append.mp listed with before | here
    · obtain ⟨merged, found, above⟩ := ih before
      rw [found]
      exact (merge_old merged last).trans above
    · rw [List.mem_singleton.mp here]
      exact merge_new _ last

end RunTurnVerdict

namespace GatedRun

open RunTurnVerdict (mergeAll mergeAll_append_singleton mergeAll_atLeast)

/-- The stamps made for a turn, in order. -/
def stampsOf (run : GatedRun) (turn : Turn) : List RunTurnVerdict :=
  (run.stamps.filter fun stamp => stamp.1 = turn).map Prod.snd

def Shows (run : GatedRun) (turn : Turn) : Prop :=
  ∃ entry ∈ run.messages ++ run.stateMessages, entry.turn = some turn

structure Kept (run : GatedRun) : Prop where
  live : ∀ turn, run.Shows turn →
    run.resultVerdicts.get turn = mergeAll (run.stampsOf turn)
  shown : ∀ turn, run.Shows turn → turn.stepNumber ≤ lastStepNumber run.steps
  stamped : ∀ stamp ∈ run.stamps, stamp.1.stepNumber ≤ lastStepNumber run.steps
  judged : ∀ turn verdict, run.resultVerdicts.get turn = some verdict →
    turn.stepNumber ≤ lastStepNumber run.steps

theorem resultVerdicts_stamp (run : GatedRun) (turn turn' : Turn)
    (verdict : RunTurnVerdict) :
    (run.stampTurnVerdict turn verdict).resultVerdicts.get turn' =
      if turn' = turn then some (verdict.merge (run.resultVerdicts.get turn))
      else run.resultVerdicts.get turn' := by
  rw [stampTurnVerdict, resultVerdicts]
  exact OrderedMap.get_set ..

variable {run : GatedRun}

theorem Kept.stamp (kept : run.Kept) (verdict : RunTurnVerdict)
    (known : turn.stepNumber ≤ lastStepNumber run.steps) :
    (run.stampTurnVerdict turn verdict).Kept := by
  constructor
  · intro turn' shows
    have before := kept.live turn' shows
    rw [resultVerdicts_stamp, stampsOf]
    split
    · rename_i same
      subst same
      simp only [stampTurnVerdict, List.filter_append, List.map_append]
      rw [List.filter_cons_of_pos (by simp), List.filter_nil, List.map_cons, List.map_nil,
        mergeAll_append_singleton, before]
      rfl
    · rename_i other
      simp only [stampTurnVerdict, List.filter_append, List.map_append]
      rw [List.filter_cons_of_neg (by simpa using Ne.symm other), List.filter_nil,
        List.map_nil, List.append_nil]
      exact before
  · exact kept.shown
  · intro stamp listed
    rcases List.mem_append.mp listed with earlier | last
    · exact kept.stamped stamp earlier
    · rw [List.mem_singleton.mp last]
      exact known
  · intro turn' verdict' found
    rw [resultVerdicts_stamp] at found
    split at found
    · rename_i same
      rw [same]
      exact known
    · exact kept.judged turn' verdict' found

/-- Transcripts may lose turns and gain untagged messages. -/
theorem Kept.shrink {run' : GatedRun} (kept : run.Kept)
    (shows : ∀ turn, run'.Shows turn → run.Shows turn)
    (verdicts : run'.verdicts = run.verdicts) (stamps : run'.stamps = run.stamps)
    (steps : run'.steps = run.steps) : run'.Kept := by
  have results : run'.resultVerdicts = run.resultVerdicts := by
    rw [resultVerdicts, resultVerdicts, verdicts]
  constructor
  · intro turn shown
    rw [results, stampsOf, stamps]
    exact kept.live turn (shows turn shown)
  · intro turn shown
    rw [steps]
    exact kept.shown turn (shows turn shown)
  · intro stamp listed
    rw [stamps] at listed
    rw [steps]
    exact kept.stamped stamp listed
  · intro turn verdict found
    rw [results] at found
    rw [steps]
    exact kept.judged turn verdict found

theorem Kept.rewrite {run : GatedRun} (kept : run.Kept) {index : Nat}
    {message rewritten : TurnMessage} (here : run.messages[index]? = some message)
    (same : rewritten.turn = message.turn) :
    (run.rewrite index message rewritten).Kept := by
  refine kept.shrink (fun turn => ?_) rfl rfl rfl
  rintro ⟨entry, listed, tagged⟩
  rcases List.mem_append.mp listed with working | durable
  · rcases List.mem_or_eq_of_mem_set working with earlier | rfl
    · exact ⟨entry, List.mem_append_left _ earlier, tagged⟩
    · exact ⟨message, List.mem_append_left _ (List.mem_of_getElem? here),
        same ▸ tagged⟩
  · obtain ⟨original, member, changed⟩ := List.mem_map.mp durable
    refine ⟨original, List.mem_append_right _ member, ?_⟩
    split at changed
    · rename_i equal
      rw [equal, ← same, changed]
      exact tagged
    · rw [changed]
      exact tagged

theorem Kept.screenMessage (kept : run.Kept) (compose : Nat → String → GuardrailVerdict)
    (index : Nat) : (run.screenMessage compose index).1.Kept := by
  unfold GatedRun.screenMessage
  split
  · rename_i turn content here
    split
    · exact kept.stamp _ (Nat.zero_le _)
    · exact kept
    · rename_i value _
      split
      · exact kept
      · have rewritten := @Kept.rewrite run kept index _ ⟨turn, .user value⟩ here rfl
        exact rewritten.stamp _ (Nat.zero_le _)
  · exact kept

theorem Kept.screenInputGuardrails (kept : run.Kept)
    (compose : Nat → String → GuardrailVerdict) (places : List Nat) :
    (run.screenInputGuardrails compose places).Kept := by
  induction places generalizing run with
  | nil => exact kept
  | cons index rest ih =>
    have screened := kept.screenMessage compose index
    rw [GatedRun.screenInputGuardrails]
    split
    · rename_i stopped
      rw [stopped] at screened
      exact screened
    · rename_i passed
      rw [passed] at screened
      exact ih screened

theorem lastStepNumber_append (steps : List Nat) (stepNumber : Nat) :
    lastStepNumber (steps ++ [stepNumber]) = max (lastStepNumber steps) stepNumber := by
  rw [lastStepNumber, List.foldl_append]
  rfl

/-- A step that is new to the run brings its turn without a verdict. -/
theorem Kept.extend {run : GatedRun} (kept : run.Kept) (message : Message) :
    let stepNumber := lastStepNumber run.steps + 1
    Kept { run with
      messages := run.messages ++ [⟨some ⟨stepNumber, 0⟩, message⟩]
      stateMessages := run.stateMessages ++ [⟨some ⟨stepNumber, 0⟩, message⟩]
      steps := run.steps ++ [stepNumber] } := by
  have later : lastStepNumber run.steps ≤
      lastStepNumber (run.steps ++ [lastStepNumber run.steps + 1]) := by
    rw [lastStepNumber_append]
    omega
  have last : lastStepNumber (run.steps ++ [lastStepNumber run.steps + 1]) =
      lastStepNumber run.steps + 1 := by
    rw [lastStepNumber_append]
    omega
  have cases : ∀ turn, Shows { run with
      messages := run.messages ++ [⟨some ⟨lastStepNumber run.steps + 1, 0⟩, message⟩]
      stateMessages := run.stateMessages ++
        [⟨some ⟨lastStepNumber run.steps + 1, 0⟩, message⟩]
      steps := run.steps ++ [lastStepNumber run.steps + 1] } turn →
        run.Shows turn ∨ turn = ⟨lastStepNumber run.steps + 1, 0⟩ := by
    rintro turn ⟨entry, listed, tagged⟩
    simp only [List.mem_append, List.mem_singleton] at listed
    rcases listed with (working | rfl) | durable | rfl
    · exact .inl ⟨entry, List.mem_append_left _ working, tagged⟩
    · exact .inr (Option.some.inj tagged).symm
    · exact .inl ⟨entry, List.mem_append_right _ durable, tagged⟩
    · exact .inr (Option.some.inj tagged).symm
  constructor
  · intro turn shows
    rcases cases turn shows with before | rfl
    · exact kept.live turn before
    · have unjudged : run.resultVerdicts.get ⟨lastStepNumber run.steps + 1, 0⟩ = none := by
        cases found : run.resultVerdicts.get ⟨lastStepNumber run.steps + 1, 0⟩ with
        | none => rfl
        | some =>
          exact absurd (kept.judged _ _ found) (Nat.not_succ_le_self _)
      have unstamped : run.stampsOf ⟨lastStepNumber run.steps + 1, 0⟩ = [] := by
        rw [stampsOf, List.map_eq_nil_iff, List.filter_eq_nil_iff]
        intro stamp listed same
        have below := kept.stamped stamp listed
        rw [of_decide_eq_true same] at below
        exact Nat.not_succ_le_self _ below
      exact unjudged.trans (congrArg mergeAll unstamped).symm
  · intro turn shows
    dsimp only
    rcases cases turn shows with before | rfl
    · exact (kept.shown turn before).trans later
    · exact last.ge
  · exact fun stamp listed => (kept.stamped stamp listed).trans later
  · exact fun turn verdict found => (kept.judged turn verdict found).trans later

theorem Kept.commitAssistantMessage (kept : run.Kept) (textBuffer : String)
    (finalCalls : List ToolCall) (agentId : String) (leakBlocked : Bool)
    (outputVerdict : Option OutputVerdict) :
    (run.commitAssistantMessage textBuffer finalCalls agentId leakBlocked
      outputVerdict).Kept := by
  have last : lastStepNumber run.steps + 1 ≤
      lastStepNumber (run.steps ++ [lastStepNumber run.steps + 1]) := by
    rw [lastStepNumber_append]
    exact Nat.le_max_right _ _
  unfold GatedRun.commitAssistantMessage
  cases leakBlocked with
  | true =>
    simp only [if_true]
    exact (kept.extend _).stamp _ last
  | false =>
    simp only [Bool.false_eq_true, if_false]
    split
    · exact kept.extend _
    · split
      · exact kept.extend _
      · exact (kept.extend _).stamp _ last

/-- A compaction forgets every verdict; those of turns that stay must be none. -/
theorem Kept.spliceCompacted (kept : run.Kept)
    (clean : ∀ entry ∈ run.rebuilt trimmed essentials, ∀ turn ∈ entry.turn,
      run.resultVerdicts.get turn = none) :
    (run.spliceCompacted trimmed essentials).Kept := by
  have results : (run.spliceCompacted trimmed essentials).resultVerdicts = .empty := by
    cases same : run.verdicts <;> simp [GatedRun.spliceCompacted, resultVerdicts, same]
  have stays : ∀ turn, (run.spliceCompacted trimmed essentials).Shows turn →
      run.Shows turn ∧ run.resultVerdicts.get turn = none := by
    rintro turn ⟨entry, listed, tagged⟩
    have member : entry ∈ run.rebuilt trimmed essentials := by
      rcases List.mem_append.mp listed with here | here <;> exact here
    refine ⟨?_, clean entry member turn tagged⟩
    rcases List.mem_append.mp member with body | extra
    · rcases List.mem_append.mp body with pinned | left
      · exact ⟨entry, List.mem_append_left _ (List.mem_of_mem_take pinned), tagged⟩
      · obtain ⟨part, -, rfl⟩ := List.mem_map.mp left
        cases part with
        | fresh => cases tagged
        | kept =>
          obtain ⟨original, found, same⟩ := Option.bind_eq_some_iff.mp tagged
          exact ⟨original, List.mem_append_left _
            (List.mem_of_mem_drop (List.mem_of_getElem? found)), same⟩
    · rw [essentialsOf] at extra
      split at extra
      · cases extra
      · rw [List.mem_singleton.mp extra] at tagged
        cases tagged
  constructor
  · intro turn shows
    obtain ⟨before, unjudged⟩ := stays turn shows
    have none := kept.live turn before
    rw [unjudged] at none
    rw [results]
    exact none
  · exact fun turn shows => kept.shown turn (stays turn shows).1
  · exact kept.stamped
  · intro turn verdict found
    rw [results] at found
    cases found

theorem Kept.screenOutput (kept : run.Kept) (output : String) (composed : GuardrailVerdict)
    : (run.screenOutput output composed).Kept := by
  unfold GatedRun.screenOutput
  split
  · exact kept.stamp _ (Nat.le_refl _)
  · exact kept
  · split
    · exact kept
    · exact kept.stamp _ (Nat.le_refl _)

/-- No message that a compaction leaves has an entry in the sidecar. -/
def Careful (run : GatedRun) : GateCall → Prop
  | .compact trimmed essentials => ∀ entry ∈ run.rebuilt trimmed essentials,
      ∀ turn ∈ entry.turn, run.resultVerdicts.get turn = none
  | _ => True

instance (run : GatedRun) : DecidablePred run.Careful
  | .compact trimmed essentials =>
    inferInstanceAs (Decidable (∀ entry ∈ run.rebuilt trimmed essentials,
      ∀ turn ∈ entry.turn, run.resultVerdicts.get turn = none))
  | .screenInput _ | .push _ | .commit .. | .screenOutput .. | .resume _ =>
    .isTrue trivial

def AllCareful : List GateCall → GatedRun → Prop
  | [], _ => True
  | call :: rest, run => run.Careful call ∧ AllCareful rest (run.step call)

theorem Kept.step {run : GatedRun} (kept : run.Kept) {call : GateCall}
    (careful : run.Careful call) : (run.step call).Kept := by
  cases call with
  | screenInput compose => exact kept.screenInputGuardrails compose _
  | push =>
    refine kept.shrink (fun turn => ?_) rfl rfl rfl
    rintro ⟨entry, listed, tagged⟩
    simp only [GatedRun.step, GatedRun.push, List.mem_append, List.mem_singleton] at listed
    rcases listed with (working | rfl) | durable | rfl
    · exact ⟨entry, List.mem_append_left _ working, tagged⟩
    · cases tagged
    · exact ⟨entry, List.mem_append_right _ durable, tagged⟩
    · cases tagged
  | commit textBuffer finalCalls agentId leakBlocked outputVerdict =>
    exact kept.commitAssistantMessage textBuffer finalCalls agentId leakBlocked
      outputVerdict
  | compact => exact kept.spliceCompacted careful
  | screenOutput output composed => exact kept.screenOutput output composed
  | resume =>
    refine kept.shrink (fun turn => ?_) rfl rfl rfl
    rintro ⟨entry, listed, tagged⟩
    refine ⟨entry, List.mem_append_right _ ?_, tagged⟩
    rcases List.mem_append.mp listed with here | here <;> exact here

theorem Kept.play (kept : run.Kept) (careful : AllCareful calls run) :
    (run.play calls).Kept := by
  induction calls generalizing run with
  | nil => exact kept
  | cons call rest ih => exact ih (kept.step careful.1) careful.2

theorem Kept.start (seeds : List Message) (systemPrefixLength : Nat) :
    (start seeds systemPrefixLength).Kept := by
  constructor
  · intro turn _
    rfl
  · rintro turn ⟨entry, listed, tagged⟩
    have member : entry ∈ (GatedRun.start seeds systemPrefixLength).messages := by
      rcases List.mem_append.mp listed with here | here <;> exact here
    obtain ⟨index, inside, rfl⟩ := List.mem_mapIdx.mp member
    cases tagged
    exact Nat.zero_le _
  · exact fun _ listed => absurd listed List.not_mem_nil
  · exact fun _ _ found => nomatch found

end GatedRun

/-- While no compaction leaves a turn that has been judged, the verdict of every
turn in the transcript is what all of its stamps come to. -/
theorem verdicts_live_with_turns {seeds : List Message} {systemPrefixLength : Nat}
    {calls : List GateCall}
    (careful : GatedRun.AllCareful calls (.start seeds systemPrefixLength)) :
    let run := (GatedRun.start seeds systemPrefixLength).play calls
    ∀ entry ∈ run.stateMessages, ∀ turn, entry.turn = some turn →
      run.resultVerdicts.get turn = RunTurnVerdict.mergeAll (run.stampsOf turn) ∧
        ∀ verdict ∈ run.stampsOf turn, ∃ merged,
          run.resultVerdicts.get turn = some merged ∧ merged.AtLeast verdict := by
  intro run entry listed turn tagged
  have kept := (GatedRun.Kept.start seeds systemPrefixLength).play careful
  have live := kept.live turn ⟨entry, List.mem_append_right _ listed, tagged⟩
  refine ⟨live, fun verdict stamped => ?_⟩
  rw [live]
  exact RunTurnVerdict.mergeAll_atLeast stamped

section Examples

private def flagged : OutputVerdict := ⟨.flag, some "untrusted-to-sink"⟩

private def twoSteps : List GateCall :=
  [.commit "see the page" [] "a" false (some flagged), .commit "done" [] "a" false none]

private def recalled : Message := .assistant "see the page" [] "a"

/-- A compaction that keeps the recent turns forgets what was found on them. -/
theorem compaction_forgets_verdicts :
    ¬ ∀ entry ∈ ((GatedRun.start [.user "look"] 0).play (twoSteps ++
        [.compact [.fresh (.system "summary"), .kept 1 recalled] ""])).stateMessages,
      ∀ turn, entry.turn = some turn →
        ∀ verdict ∈ ((GatedRun.start [.user "look"] 0).play (twoSteps ++
          [.compact [.fresh (.system "summary"), .kept 1 recalled] ""])).stampsOf turn,
          ∃ merged, ((GatedRun.start [.user "look"] 0).play (twoSteps ++
              [.compact [.fresh (.system "summary"), .kept 1 recalled]
                ""])).resultVerdicts.get turn = some merged ∧ merged.AtLeast verdict := by
  intro all
  obtain ⟨merged, found, -⟩ := all ⟨some ⟨1, 0⟩, recalled⟩ (by decide) ⟨1, 0⟩ rfl
    { dataflowFlags := ["assistant-output:flag", "assistant-output:untrusted-to-sink"] }
    (by decide)
  have none : ((GatedRun.start [.user "look"] 0).play (twoSteps ++
      [.compact [.fresh (.system "summary"), .kept 1 recalled]
        ""])).resultVerdicts.get ⟨1, 0⟩ = none := by decide
  rw [none] at found
  cases found

private def screened : List GateCall :=
  twoSteps ++ [.compact [.fresh (.system "summary"), .kept 2 (.assistant "done" [] "a")] "",
    .screenOutput "done" (.blocked "g" "no")]

theorem verdicts_live_over_compaction :
    ((GatedRun.start [.user "look"] 0).play screened).resultVerdicts.get ⟨2, 0⟩ =
      RunTurnVerdict.mergeAll
        (((GatedRun.start [.user "look"] 0).play screened).stampsOf ⟨2, 0⟩) := by
  have careful : GatedRun.AllCareful screened (.start [.user "look"] 0) := by
    refine ⟨trivial, trivial, ?_, trivial, trivial⟩
    decide
  exact (verdicts_live_with_turns careful ⟨some ⟨2, 0⟩, .assistant "done" [] "a"⟩
    (by decide) ⟨2, 0⟩ rfl).1

end Examples

end Graphorin.Agent
