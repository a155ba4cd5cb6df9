import Graphorin.Agent.Types
import Graphorin.Js.Space
import Mathlib.Data.List.Forall2

namespace Graphorin.Proactive

open Graphorin.Agent (RunStatus RunError ToolApproval ApprovalDecision)

/-! A proactive cron task: a fire runs an agent, and what comes of the run is put on the
escalation ladder. -/

inductive ProactiveOutcomeKind
  | notify
  | question
  | review
  | act
  deriving DecidableEq

abbrev ProactiveGrant := ProactiveOutcomeKind

/-- The place on `PROACTIVE_OUTCOME_LADDER`. -/
def rung : ProactiveOutcomeKind → Nat
  | .notify => 0
  | .question => 1
  | .review => 2
  | .act => 3

def kindName : ProactiveOutcomeKind → String
  | .notify => "notify"
  | .question => "question"
  | .review => "review"
  | .act => "act"

def proactiveOutcomeWithinGrant (kind : ProactiveOutcomeKind) (grant : ProactiveGrant) : Bool :=
  rung kind ≤ rung grant

inductive SideEffectClass
  | pure
  | readOnly
  | sideEffecting
  | externalStateful
  deriving DecidableEq

def isWriterClass : SideEffectClass → Bool
  | .sideEffecting | .externalStateful => true
  | .pure | .readOnly => false

/-- `registry` has what the registry of the agent says of a tool. -/
structure CronTaskOptions where
  id : String
  grant : ProactiveGrant := .notify
  registry : String → Option (Option SideEffectClass)
  tracksSuspended : Bool
  reviewOptions : List (String × String) := [("Approve", "approve"), ("Deny", "deny")]

/-- The state of an agent run: the tools of its completed calls by step. -/
structure RunState where
  id : String
  pendingApprovals : List ToolApproval
  steps : List (List String)

structure AgentResult where
  status : RunStatus
  state : RunState
  output : Option String
  error : Option RunError := none

structure AgentApprovalRef where
  runId : String
  toolCallId : String
  deriving DecidableEq

structure ProactiveOutcome where
  kind : ProactiveOutcomeKind
  taskId : String
  text : String
  ref : Option AgentApprovalRef := none
  options : List (String × String) := []
  runId : String
  sessionId : String
  deriving DecidableEq

/-- What an awaited promise comes to. -/
inductive Answer
  | prompt (text : String)
  | session (id : String)
  | result (result : AgentResult)
  | observed
  | threw (message : String)

/-- What a fire in progress awaits. -/
inductive Phase
  | prompting
  | opening
  | running (sessionId : String)
  | denying (kind : ProactiveOutcomeKind) (state : RunState)
      (approvals : List ApprovalDecision)
  | delivering (outcome : ProactiveOutcome)

inductive FireResult
  | skippedInFlight
  | skippedInactive
  | outcome (outcome : ProactiveOutcome)
  | runError (message code : String)
  | escalationBlocked (kind : ProactiveOutcomeKind)
  | silent
  deriving DecidableEq

/-- A run that suspended above the grant, with what is left pending of it. -/
structure BlockedRun where
  fire : Nat
  left : List ToolApproval

structure World where
  fireInFlight : Bool := false
  fires : Nat := 0
  outcomes : Nat := 0
  failures : Nat := 0
  escalationsBlocked : Nat := 0
  /-- The completed runs with nothing to say. -/
  silent : Nat := 0
  started : Nat := 0
  active : List (Nat × Phase) := []
  delivered : List ProactiveOutcome := []
  registered : List (Nat × String) := []
  blocked : List BlockedRun := []
  results : List FireResult := []

section

variable (task : CronTaskOptions)

def isWriterTool (toolName : String) : Bool :=
  match task.registry toolName with
  | none => true
  | some none => true
  | some (some sideEffects) => isWriterClass sideEffects

def denials (kind : ProactiveOutcomeKind) (pending : List ToolApproval) :
    List ApprovalDecision :=
  pending.map fun approval =>
    { toolCallId := approval.toolCallId
      granted := false
      reason := some ("denied: '" ++ kindName kind ++ "' is above the task grant '" ++
        kindName task.grant ++ "'")
      subRunToolCallId := approval.subRunToolCallId }

/-- `fireInFlight = false` in `finally`. -/
def World.settle (world : World) (fire : Nat) (result : FireResult) : World :=
  { world with
    fireInFlight := false
    active := world.active.filter fun entry => entry.1 ≠ fire
    results := world.results ++ [result] }

def World.await (world : World) (fire : Nat) (phase : Phase) : World :=
  { world with active := world.active.map fun entry =>
      if entry.1 = fire then (fire, phase) else entry }

def World.failed (world : World) (fire : Nat) (message code : String) : World :=
  { world with failures := world.failures + 1 }.settle fire (.runError message code)

/-- `deliver`, up to the call of the observer. -/
def World.deliver (world : World) (fire : Nat) (outcome : ProactiveOutcome) : World :=
  { world with
    outcomes := world.outcomes + 1
    delivered := world.delivered ++ [outcome] }.await fire (.delivering outcome)

def suspendedKind (pending : List ToolApproval) : ProactiveOutcomeKind :=
  if pending.any fun approval => isWriterTool task approval.toolName then .review else .question

def suspendedText (kind : ProactiveOutcomeKind) (pending : List ToolApproval) : String :=
  (if kind = .review then "Approval needed: " else "Input needed: ") ++
    ", ".intercalate (pending.map ToolApproval.toolName) ++ "." ++
      match pending.head?.bind ToolApproval.reason with
      | some reason => " " ++ reason
      | none => ""

/-- `registerSuspended`, where there is a tracker. -/
def World.track (world : World) (fire : Nat) (runId : String) : World :=
  if task.tracksSuspended then { world with registered := world.registered ++ [(fire, runId)] }
  else world

/-- The run waits for approval. -/
def World.suspended (world : World) (fire : Nat) (sessionId : String) (state : RunState) :
    World :=
  let pending := state.pendingApprovals
  let kind := suspendedKind task pending
  if proactiveOutcomeWithinGrant kind task.grant then
    let world := world.track task fire state.id
    let toolCallId := (pending.head?.map ToolApproval.toolCallId).getD ""
    -- `serializeApprovalRef` throws on an empty segment
    if state.id = "" ∨ toolCallId = "" then
      world.failed fire
        "[graphorin/proactive] serializeApprovalRef: runId and toolCallId must be non-empty"
        "fire-threw"
    else
      world.deliver fire
        { kind, taskId := task.id, text := suspendedText kind pending
          ref := some ⟨state.id, toolCallId⟩, options := task.reviewOptions
          runId := state.id, sessionId }
  else
    { world with escalationsBlocked := world.escalationsBlocked + 1 }.await fire
      (.denying kind state (denials task kind pending))

def World.completed (world : World) (fire : Nat) (sessionId : String) (result : AgentResult) :
    World :=
  let text := String.ofList (Js.trim Js.isWhiteChar (result.output.getD "").toList)
  if text = "" then { world with silent := world.silent + 1 }.settle fire .silent
  else
    let executedWriter := result.state.steps.flatten.any (isWriterTool task)
    world.deliver fire
      { kind := if task.grant = .act ∧ executedWriter then .act else .notify
        taskId := task.id, text, runId := result.state.id, sessionId }

def statusName : RunStatus → String
  | .running => "running"
  | .completed => "completed"
  | .failed => "failed"
  | .aborted => "aborted"
  | .awaitingApproval => "awaiting_approval"

def World.ran (world : World) (fire : Nat) (sessionId : String) (result : AgentResult) : World :=
  match result.status with
  | .awaitingApproval => world.suspended task fire sessionId result.state
  | .completed => world.completed task fire sessionId result
  | status =>
    world.failed fire ((result.error.map RunError.message).getD (statusName status))
      ((result.error.map RunError.code).getD (statusName status))

def World.block (world : World) (fire : Nat) (left : List ToolApproval) : World :=
  { world with blocked := world.blocked ++ [⟨fire, left⟩] }

def World.resume (world : World) (fire : Nat) : Phase → Answer → Option World
  | .prompting, .prompt _ => some ({ world with fires := world.fires + 1 }.await fire .opening)
  | .opening, .session id => some (world.await fire (.running id))
  | .running sessionId, .result result => some (world.ran task fire sessionId result)
  | .denying kind _ _, .result result =>
    some ((world.block fire result.state.pendingApprovals).settle fire (.escalationBlocked kind))
  | .denying _ state _, .threw message =>
    some ((world.block fire state.pendingApprovals).failed fire message "fire-threw")
  | .delivering outcome, .observed => some (world.settle fire (.outcome outcome))
  -- `deliver` catches what the observer throws
  | .delivering outcome, .threw _ => some (world.settle fire (.outcome outcome))
  | .prompting, .threw message => some (world.failed fire message "fire-threw")
  | .opening, .threw message => some (world.failed fire message "fire-threw")
  | .running _, .threw message => some (world.failed fire message "fire-threw")
  | _, _ => none

/-- A call of `fire` at an hour that is active or not, or the answer that a fire awaits. -/
inductive Action
  | fire (withinActiveHours : Bool)
  | answer (fire : Nat) (answer : Answer)

def World.phase? (world : World) (fire : Nat) : Option Phase :=
  (world.active.find? fun entry => entry.1 = fire).map Prod.snd

def step (world : World) : Action → Option World
  | .fire withinActiveHours =>
    if world.fireInFlight then
      some { world with results := world.results ++ [.skippedInFlight] }
    else if withinActiveHours then
      some { world with
        fireInFlight := true
        started := world.started + 1
        active := world.active ++ [(world.started, .prompting)] }
    else some { world with results := world.results ++ [.skippedInactive] }
  | .answer fire answer => (world.phase? fire).bind fun phase => world.resume task fire phase answer

end

/-- The prompt does not fail, and the denial run ends with nothing left to approve. -/
def Tame : Phase → Answer → Prop
  | .prompting, .threw _ => False
  | .denying _ _ _, .threw _ => False
  | .denying _ _ _, .result result => result.state.pendingApprovals = []
  | _, _ => True

def TameAction (world : World) : Action → Prop
  | .fire _ => True
  | .answer fire answer => ∀ phase, world.phase? fire = some phase → Tame phase answer

structure Bounded (grant : ProactiveGrant) (world : World) : Prop where
  single : world.active.length ≤ 1
  within : ∀ outcome ∈ world.delivered, proactiveOutcomeWithinGrant outcome.kind grant = true
  closed : ∀ run ∈ world.blocked, run.left = [] ∧ ∀ entry ∈ world.registered, entry.1 ≠ run.fire
  accounted : world.active = [] → world.fires =
    world.outcomes + world.failures + world.escalationsBlocked + world.silent

structure Sound (grant : ProactiveGrant) (world : World) : Prop where
  within : ∀ outcome ∈ world.delivered, proactiveOutcomeWithinGrant outcome.kind grant = true
  closed : ∀ run ∈ world.blocked, run.left = [] ∧ ∀ entry ∈ world.registered, entry.1 ≠ run.fire
  blockedOlder : ∀ run ∈ world.blocked, run.fire < world.started
  registeredOlder : ∀ entry ∈ world.registered, entry.1 < world.started

def owed : Phase → Nat
  | .opening | .running _ => 1
  | .prompting | .denying _ _ _ | .delivering _ => 0

def Unregistered (world : World) (fire : Nat) : Phase → Prop
  | .delivering _ => True
  | _ => ∀ entry ∈ world.registered, entry.1 ≠ fire

structure Held (world : World) (fire : Nat) (phase : Phase) : Prop where
  active : world.active = [(fire, phase)]
  flag : world.fireInFlight = true
  older : fire < world.started
  open_ : ∀ run ∈ world.blocked, run.fire ≠ fire

structure Live (world : World) (fire : Nat) (phase : Phase) : Prop
    extends Held world fire phase where
  unregistered : Unregistered world fire phase

def tally (world : World) : Nat :=
  world.outcomes + world.failures + world.escalationsBlocked + world.silent

inductive Inv (grant : ProactiveGrant) (world : World) : Prop
  | idle (sound : Sound grant world) (active : world.active = [])
      (flag : world.fireInFlight = false) (balance : world.fires = tally world)
  | busy {fire : Nat} {phase : Phase} (sound : Sound grant world) (live : Live world fire phase)
      (balance : world.fires = tally world + owed phase)

variable {grant : ProactiveGrant} {task : CronTaskOptions} {world : World} {fire : Nat}
  {phase : Phase}

theorem Inv.bounded (inv : Inv grant world) : Bounded grant world := by
  cases inv with
  | idle sound active _ balance =>
    exact ⟨by rw [active]; exact Nat.zero_le 1, sound.within, sound.closed, fun _ => balance⟩
  | busy sound live =>
    refine ⟨by rw [live.active]; exact Nat.le_refl 1, sound.within, sound.closed, ?_⟩
    rw [live.active]
    exact nofun

theorem settle_inv (sound : Sound grant world) (active : world.active = [(fire, phase)])
    (balance : world.fires = tally world) (result : FireResult) :
    Inv grant (world.settle fire result) := by
  refine .idle ⟨sound.within, sound.closed, sound.blockedOlder, sound.registeredOlder⟩ ?_ rfl
    balance
  simp [World.settle, active]

theorem failed_inv (sound : Sound grant world) (active : world.active = [(fire, phase)])
    (balance : world.fires = tally world + 1) (message code : String) :
    Inv grant (world.failed fire message code) := by
  refine @settle_inv grant { world with failures := world.failures + 1 } fire phase
    ⟨sound.within, sound.closed, sound.blockedOlder, sound.registeredOlder⟩ active ?_ _
  simp only [tally] at balance ⊢
  omega

theorem await_inv (sound : Sound grant world) (held : Held world fire phase) {next : Phase}
    (unregistered : Unregistered world fire next)
    (balance : world.fires = tally world + owed next) : Inv grant (world.await fire next) := by
  have live : Live (world.await fire next) fire next := by
    refine ⟨⟨?_, held.flag, held.older, held.open_⟩, unregistered⟩
    simp [World.await, held.active]
  exact .busy ⟨sound.within, sound.closed, sound.blockedOlder, sound.registeredOlder⟩ live balance

theorem deliver_inv (sound : Sound grant world) (held : Held world fire phase)
    (outcome : ProactiveOutcome)
    (within : proactiveOutcomeWithinGrant outcome.kind grant = true)
    (balance : world.fires = tally world + 1) : Inv grant (world.deliver fire outcome) := by
  have delivered : Sound grant { world with
      outcomes := world.outcomes + 1, delivered := world.delivered ++ [outcome] } := by
    refine ⟨fun other here => ?_, sound.closed, sound.blockedOlder, sound.registeredOlder⟩
    rcases List.mem_append.mp here with old | last
    · exact sound.within other old
    · rw [List.mem_singleton.mp last]
      exact within
  refine await_inv delivered ⟨held.active, held.flag, held.older, held.open_⟩ trivial ?_
  simp only [tally, owed] at balance ⊢
  omega

theorem notify_within (grant : ProactiveGrant) :
    proactiveOutcomeWithinGrant .notify grant = true :=
  decide_eq_true (Nat.zero_le _)

variable {sessionId : String}

theorem completed_inv (sound : Sound task.grant world)
    (live : Live world fire (.running sessionId)) (balance : world.fires = tally world + 1)
    (result : AgentResult) :
    Inv task.grant (world.completed task fire sessionId result) := by
  simp only [World.completed]
  split
  · refine @settle_inv task.grant { world with silent := world.silent + 1 } fire
      (.running sessionId) ⟨sound.within, sound.closed, sound.blockedOlder,
      sound.registeredOlder⟩ live.active ?_ _
    simp only [tally] at balance ⊢
    omega
  · refine deliver_inv sound live.toHeld _ ?_ balance
    by_cases acted : task.grant = .act ∧
        result.state.steps.flatten.any (isWriterTool task) = true
    · simp only [if_pos acted]
      rw [acted.1]
      rfl
    · simp only [if_neg acted]
      exact notify_within task.grant

theorem track_sound (sound : Sound grant world) (live : Live world fire phase) (runId : String) :
    Sound grant (world.track task fire runId) := by
  unfold World.track
  split
  · refine ⟨sound.within, fun run here => ?_, sound.blockedOlder, fun entry here => ?_⟩
    · refine ⟨(sound.closed run here).1, fun entry listed => ?_⟩
      rcases List.mem_append.mp listed with old | last
      · exact (sound.closed run here).2 entry old
      · rw [List.mem_singleton.mp last]
        exact (live.open_ run here).symm
    · rcases List.mem_append.mp here with old | last
      · exact sound.registeredOlder entry old
      · rw [List.mem_singleton.mp last]
        exact live.older
  · exact sound

theorem track_held (held : Held world fire phase) (runId : String) :
    Held (world.track task fire runId) fire phase := by
  unfold World.track
  split <;> exact ⟨held.active, held.flag, held.older, held.open_⟩

theorem track_balance (balance : world.fires = tally world + 1) (runId : String) :
    (world.track task fire runId).fires = tally (world.track task fire runId) + 1 := by
  unfold World.track
  split <;> exact balance

theorem suspended_inv (sound : Sound task.grant world)
    (live : Live world fire (.running sessionId)) (balance : world.fires = tally world + 1)
    (state : RunState) : Inv task.grant (world.suspended task fire sessionId state) := by
  simp only [World.suspended]
  by_cases within : proactiveOutcomeWithinGrant
      (suspendedKind task state.pendingApprovals) task.grant = true
  · rw [if_pos within]
    have tracked : Sound task.grant (world.track task fire state.id) :=
      track_sound sound live state.id
    have balanced := @track_balance task world fire balance state.id
    have held : Held (world.track task fire state.id) fire (.running sessionId) :=
      track_held live.toHeld state.id
    split
    · exact failed_inv tracked held.active balanced _ _
    · exact deliver_inv tracked held _ within balanced
  · rw [if_neg within]
    refine @await_inv task.grant
      { world with escalationsBlocked := world.escalationsBlocked + 1 } fire (.running sessionId)
      ⟨sound.within, sound.closed, sound.blockedOlder, sound.registeredOlder⟩
      ⟨live.active, live.flag, live.older, live.open_⟩ _ live.unregistered ?_
    simp only [tally, owed] at balance ⊢
    omega

/-- Above the grant the run goes on with a denial of each pending approval, for the sub-run
that asked for it. -/
theorem suspended_denies (held : Held world fire phase) (state : RunState)
    (above : proactiveOutcomeWithinGrant (suspendedKind task state.pendingApprovals)
      task.grant = false) :
    ∃ approvals, (world.suspended task fire sessionId state).active =
        [(fire, .denying (suspendedKind task state.pendingApprovals) state approvals)] ∧
      List.Forall₂ (fun approval decision => decision.granted = false ∧
        decision.toolCallId = approval.toolCallId ∧
          decision.subRunToolCallId = approval.subRunToolCallId)
        state.pendingApprovals approvals := by
  refine ⟨denials task (suspendedKind task state.pendingApprovals) state.pendingApprovals,
    ?_, ?_⟩
  · simp [World.suspended, above, World.await, held.active]
  · rw [denials, List.forall₂_map_right_iff]
    exact List.forall₂_same.mpr fun _ _ => ⟨rfl, rfl, rfl⟩

theorem ran_inv (sound : Sound task.grant world)
    (live : Live world fire (.running sessionId)) (balance : world.fires = tally world + 1)
    (result : AgentResult) : Inv task.grant (world.ran task fire sessionId result) := by
  unfold World.ran
  split
  · exact suspended_inv sound live balance result.state
  · exact completed_inv sound live balance result
  · exact failed_inv sound live.active balance _ _

theorem block_sound (sound : Sound grant world) {kind : ProactiveOutcomeKind} {state : RunState}
    {approvals : List ApprovalDecision} (live : Live world fire (.denying kind state approvals)) :
    Sound grant (world.block fire []) := by
  refine ⟨sound.within, fun run here => ?_, fun run here => ?_, sound.registeredOlder⟩
  · rcases List.mem_append.mp here with old | last
    · exact sound.closed run old
    · rw [List.mem_singleton.mp last]
      exact ⟨rfl, live.unregistered⟩
  · rcases List.mem_append.mp here with old | last
    · exact sound.blockedOlder run old
    · rw [List.mem_singleton.mp last]
      exact live.older

variable {world' : World}

theorem resume_inv (sound : Sound task.grant world) (live : Live world fire phase)
    (balance : world.fires = tally world + owed phase) {answer : Answer}
    (tame : Tame phase answer) (resumed : world.resume task fire phase answer = some world')
    : Inv task.grant world' := by
  cases phase with
  | prompting =>
    cases answer with
    | prompt =>
      cases resumed
      refine @await_inv task.grant { world with fires := world.fires + 1 } fire .prompting
        ⟨sound.within, sound.closed, sound.blockedOlder, sound.registeredOlder⟩
        ⟨live.active, live.flag, live.older, live.open_⟩ _ live.unregistered ?_
      simp only [tally, owed] at balance ⊢
      omega
    | threw => exact tame.elim
    | _ => exact absurd resumed nofun
  | opening =>
    cases answer with
    | session =>
      cases resumed
      exact await_inv sound live.toHeld live.unregistered balance
    | threw =>
      cases resumed
      exact failed_inv sound live.active balance _ _
    | _ => exact absurd resumed nofun
  | running =>
    cases answer with
    | result result =>
      cases resumed
      exact ran_inv sound live balance result
    | threw =>
      cases resumed
      exact failed_inv sound live.active balance _ _
    | _ => exact absurd resumed nofun
  | denying =>
    cases answer with
    | result result =>
      cases resumed
      have none : result.state.pendingApprovals = [] := tame
      rw [none]
      exact settle_inv (block_sound sound live) live.active balance _
    | threw => exact tame.elim
    | _ => exact absurd resumed nofun
  | delivering =>
    cases answer with
    | observed =>
      cases resumed
      exact settle_inv sound live.active balance _
    | threw =>
      cases resumed
      exact settle_inv sound live.active balance _
    | _ => exact absurd resumed nofun

theorem step_inv (inv : Inv task.grant world) {action : Action}
    (tame : TameAction world action) (taken : step task world action = some world') :
    Inv task.grant world' := by
  cases action with
  | answer at_ answer =>
    obtain ⟨phase, found, resumed⟩ := Option.bind_eq_some_iff.mp taken
    have mild := tame phase found
    cases inv with
    | idle _ active =>
      rw [World.phase?, active] at found
      exact absurd found nofun
    | @busy fire _ sound live balance =>
      rw [World.phase?, live.active, List.find?_singleton] at found
      split at found
      · rename_i same
        cases found
        cases of_decide_eq_true same
        exact resume_inv sound live balance mild resumed
      · exact absurd found nofun
  | fire =>
    cases inv with
    | idle sound active flag balance =>
      simp only [step, flag, Bool.false_eq_true, if_false] at taken
      split at taken
      · cases taken
        refine @Inv.busy _ _ world.started .prompting
          ⟨sound.within, sound.closed,
            fun run here => Nat.lt_succ_of_lt (sound.blockedOlder run here),
            fun entry here => Nat.lt_succ_of_lt (sound.registeredOlder entry here)⟩
          ⟨⟨by simp only [active, List.nil_append], rfl, Nat.lt_succ_self _,
            fun run here => Nat.ne_of_lt (sound.blockedOlder run here)⟩,
            fun entry here => Nat.ne_of_lt (sound.registeredOlder entry here)⟩ balance
      · cases taken
        exact .idle ⟨sound.within, sound.closed, sound.blockedOlder, sound.registeredOlder⟩
          active rfl balance
    | busy sound live balance =>
      simp only [step, live.flag, if_true] at taken
      cases taken
      exact .busy ⟨sound.within, sound.closed, sound.blockedOlder, sound.registeredOlder⟩
        ⟨⟨live.active, rfl, live.older, live.open_⟩, live.unregistered⟩ balance

def play (task : CronTaskOptions) : World → List Action → Option World
  | world, [] => some world
  | world, action :: rest => (step task world action).bind fun next => play task next rest

def AllTame (task : CronTaskOptions) : World → List Action → Prop
  | _, [] => True
  | world, action :: rest =>
    TameAction world action ∧ ∀ next, step task world action = some next → AllTame task next rest

theorem play_inv {actions : List Action} (inv : Inv task.grant world)
    (tame : AllTame task world actions) (played : play task world actions = some world') :
    Inv task.grant world' := by
  induction actions generalizing world with
  | nil =>
    cases played
    exact inv
  | cons action rest ih =>
    obtain ⟨next, taken, later⟩ := Option.bind_eq_some_iff.mp played
    exact ih (step_inv inv tame.1 taken) (tame.2 next taken) later

theorem start_inv (grant : ProactiveGrant) : Inv grant {} :=
  .idle ⟨nofun, nofun, nofun, nofun⟩ rfl rfl rfl

theorem tame_fires_stay_bounded {task : CronTaskOptions} {actions : List Action} {world : World}
    (tame : AllTame task {} actions) (played : play task {} actions = some world) :
    Bounded task.grant world :=
  (play_inv (start_inv task.grant) tame played).bounded

def plainTask : CronTaskOptions where
  id := "digest"
  registry _ := none
  tracksSuspended := true

def asking (status : RunStatus) (left : List ToolApproval) : Answer :=
  .result ⟨status, ⟨"run", left, []⟩, none, none⟩

def approval : ToolApproval := ⟨"call", "send", .null, none, none, none⟩

/-- A fire up to the suspension of its run, above the grant. -/
def escalates : List Action :=
  [.fire true, .answer 0 (.prompt "look"), .answer 0 (.session "s"),
    .answer 0 (asking .awaitingApproval [approval])]

def denied : List Action := escalates ++ [.answer 0 (asking .completed [])]

theorem denied_bounded : ∃ world, play plainTask {} denied = some world ∧
    Bounded .notify world := by
  have tame : AllTame plainTask {} denied := by
    refine ⟨trivial, fun _ taken => ?_⟩
    cases taken
    refine ⟨fun phase found => by cases found; trivial, fun _ taken => ?_⟩
    cases taken
    refine ⟨fun phase found => by cases found; trivial, fun _ taken => ?_⟩
    cases taken
    refine ⟨fun phase found => by cases found; trivial, fun _ taken => ?_⟩
    cases taken
    exact ⟨fun phase found => by cases found; rfl, fun _ _ => trivial⟩
  exact ⟨_, rfl, @tame_fires_stay_bounded plainTask denied _ tame rfl⟩

/-- A denial run that suspends again stays parked, one that throws is counted twice, and a
prompt that throws is a failure of no fire. -/
theorem denial_leaks :
    ((play plainTask {} (escalates ++ [.answer 0 (asking .awaitingApproval [approval])])).map
      fun world => (world.active.length, world.blocked.map BlockedRun.left)) =
        some (0, [[approval]]) ∧
    ((play plainTask {} (escalates ++ [.answer 0 (.threw "down")])).map fun world =>
      (world.active.length, world.fires, tally world)) = some (0, 1, 2) ∧
    ((play plainTask {} [.fire true, .answer 0 (.threw "no prompt")]).map fun world =>
      (world.active.length, world.fires, tally world)) = some (0, 0, 1) :=
  ⟨rfl, rfl, rfl⟩

end Graphorin.Proactive
