import Mathlib.Data.List.Induction
import Graphorin.Server.RunState

namespace Graphorin.Server

open Graphorin.Lib

/-! A run settles once.  What one run shows is a small machine of its own; the
tracker moves it whatever happens to the other runs. -/

variable {σ : Type}

namespace RunStateTracker

def reportsOf (tracker : RunStateTracker σ) (runId : String) : List (Report σ) :=
  (tracker.reports.filter fun said => said.1 = runId).map Prod.snd

end RunStateTracker

def Report.activity? : Report σ → Option ActivityKind
  | .activity event => some event.kind
  | _ => none

def Report.terminal? : Report σ → Option TerminalRunInfo
  | .terminal info => some info
  | _ => none

structure RunView where
  status : Option RunStatus
  activity : List ActivityKind
  terminals : List TerminalRunStatus

namespace RunStateTracker

def view (tracker : RunStateTracker σ) (runId : String) : RunView where
  status := tracker.statusOf runId
  activity := (tracker.reportsOf runId).filterMap Report.activity?
  terminals := ((tracker.reportsOf runId).filterMap Report.terminal?).map
    TerminalRunInfo.status

end RunStateTracker

inductive Touch
  | declare
  | start
  | suspend
  | registerSuspended
  | abort
  | abortPending
  | complete (status : TerminalRunStatus)
  | prune (dropped : Bool)
  | nothing

def RunOperation.touch (runId : String) (tracker : RunStateTracker σ) :
    RunOperation σ → Touch
  | .declare other _ => if other = runId then .declare else .nothing
  | .start _ other _ => if other = runId then .start else .nothing
  | .suspend other _ => if other = runId then .suspend else .nothing
  | .registerSuspended other _ _ =>
    if other = runId then .registerSuspended else .nothing
  | .abort _ other => if other = runId then .abort else .nothing
  | .abortPending _ => .abortPending
  | .complete _ other status _ =>
    if other = runId then .complete status else .nothing
  | .prune olderThan =>
    .prune ((tracker.records.get runId).any
      (RunStateTracker.prunable olderThan))

namespace RunView

def Over (view : RunView) : Prop := view.status.any isTerminalStatus = true

instance (view : RunView) : Decidable view.Over :=
  inferInstanceAs (Decidable (view.status.any isTerminalStatus = true))

def emits (view : RunView) (kind : ActivityKind) : RunView :=
  { view with activity := view.activity ++ [kind] }

def settle (view : RunView) (status : TerminalRunStatus) : RunView :=
  { view with
    status := some status.toStatus
    terminals := view.terminals ++ [status] }

def enters (view : RunView) (status : RunStatus) : RunView :=
  { view with status := some status }

def step (view : RunView) : Touch → RunView
  | .declare => if view.status.isSome then view else view.enters .pending
  | .start => (view.enters .running).emits .runStart
  | .suspend =>
    if view.status.isSome then (view.enters .awaitingApproval).emits .runEnd
    else view
  | .registerSuspended => view.enters .awaitingApproval
  | .abort =>
    if view.status.any fun status => !isTerminalStatus status then
      view.settle .aborted
    else view
  | .abortPending =>
    if view.status = some .pending then view.settle .aborted else view
  | .complete status =>
    if view.status.isNone then view
    else if view.status.any isTerminalStatus then view.enters status.toStatus
    else (view.settle status).emits .runEnd
  | .prune dropped => if dropped then { view with status := none } else view
  | .nothing => view

end RunView

namespace RunStateTracker

section View

variable (tracker : RunStateTracker σ) {runId other : String}

@[simp] theorem view_put_self (record : RunRecord σ) :
    (tracker.put runId record).view runId =
      (tracker.view runId).enters record.status := by
  simp [view, put, statusOf, OrderedMap.get_set, RunView.enters, reportsOf]

theorem view_put_other (apart : other ≠ runId) (record : RunRecord σ) :
    (tracker.put other record).view runId = tracker.view runId := by
  simp [view, put, statusOf, OrderedMap.get_set, apart.symm, reportsOf]

theorem view_report_other (apart : other ≠ runId) (said : Report σ) :
    (tracker.report other said).view runId = tracker.view runId := by
  simp [view, report, statusOf, reportsOf, List.filter_append, apart]

@[simp] theorem view_emitActivity_self (kind : ActivityKind) (runKind : RunKind) :
    (tracker.emitActivity runId kind runKind).view runId =
      (tracker.view runId).emits kind := by
  simp [view, emitActivity, report, statusOf, reportsOf, List.filter_append,
    Report.activity?, Report.terminal?, RunView.emits]

@[simp] theorem view_suspended_self (descriptor : RunDescriptor)
    (state : Option σ) :
    (tracker.report runId (.suspended descriptor state)).view runId =
      tracker.view runId := by
  simp [view, report, statusOf, reportsOf, List.filter_append, Report.activity?,
    Report.terminal?]

@[simp] theorem view_settled_self :
    (tracker.report runId .settled).view runId = tracker.view runId := by
  simp [view, report, statusOf, reportsOf, List.filter_append, Report.activity?,
    Report.terminal?]

theorem view_emitTerminal_self (settles : record.status = status.toStatus) :
    (tracker.emitTerminal runId record).view runId =
      { tracker.view runId with
        terminals := (tracker.view runId).terminals ++ [status] } := by
  have narrowed : record.status.terminal? = some status := by
    rw [settles]
    cases status <;> rfl
  simp [emitTerminal, narrowed, view, report, statusOf, reportsOf,
    List.filter_append, Report.activity?, Report.terminal?]

theorem view_emitTerminal_other (apart : other ≠ runId) (record : RunRecord σ) :
    (tracker.emitTerminal other record).view runId = tracker.view runId := by
  unfold emitTerminal
  split
  · rfl
  · exact view_report_other tracker apart _

end View

variable {tracker : RunStateTracker σ} {runId : String}

theorem view_status (tracker : RunStateTracker σ) (runId : String) :
    (tracker.view runId).status =
      (tracker.records.get runId).map RunRecord.status := rfl

theorem view_declare (descriptor : RunDescriptor) :
    (tracker.declare runId descriptor).view runId =
      (tracker.view runId).step .declare := by
  unfold declare
  cases found : tracker.records.get runId with
  | some => simp [RunView.step, view_status, found]
  | none => simp [RunView.step, view_status, found, reserved]

theorem view_start (now : Int) (descriptor : RunDescriptor) :
    (tracker.start now runId descriptor).view runId =
      (tracker.view runId).step .start := by
  simp [start, RunView.step]

theorem view_suspend (state : Option σ) : (tracker.suspend runId state).view runId =
      (tracker.view runId).step .suspend := by
  unfold suspend
  cases found : tracker.records.get runId with
  | some => simp [RunView.step, view_status, found]
  | none => simp [RunView.step, view_status, found]

theorem view_registerSuspended (descriptor : RunDescriptor) (state : Option σ) :
    (tracker.registerSuspended runId descriptor state).view runId =
      (tracker.view runId).step .registerSuspended := by
  simp [registerSuspended, RunView.step]

theorem open_status (status : RunStatus) :
    (status = .pending ∨ status = .running ∨ status = .awaitingApproval) ↔
      isTerminalStatus status = false := by
  cases status <;> decide

theorem view_settle (settles : record.status = status.toStatus) :
    ((tracker.put runId record).emitTerminal runId record).view runId =
      (tracker.view runId).settle status := by
  rw [view_emitTerminal_self _ settles, view_put_self, settles]
  rfl

theorem view_abort (now : Int) :
    (tracker.abort now runId).2.view runId = (tracker.view runId).step .abort := by
  unfold abort
  cases found : tracker.records.get runId with
  | none => simp [RunView.step, view_status, found]
  | some =>
    simp only [open_status, RunView.step, view_status, found, Option.map_some,
      Option.any_some, Bool.not_eq_true']
    split
    · exact view_settle rfl
    · rw [view_put_self, RunView.enters]
      simp only [view, statusOf, found, Option.map_some]

theorem view_complete (now : Int) (status : TerminalRunStatus)
    (err : Option Thrown) : (tracker.complete now runId status err).view runId =
      (tracker.view runId).step (.complete status) := by
  unfold complete
  cases found : tracker.records.get runId with
  | none => simp [RunView.step, view_status, found]
  | some record =>
    simp only [RunView.step, view_status, found, Option.map_some,
      Option.any_some, Option.isNone_some]
    have dropped : ∀ (tracker : RunStateTracker σ) (wasSuspended : Prop)
        [Decidable wasSuspended],
        (if wasSuspended then tracker.report runId .settled else tracker).view
          runId = tracker.view runId := by
      intro tracker wasSuspended _
      split
      · exact view_settled_self tracker
      · rfl
    cases isTerminalStatus record.status with
    | true => simp only [if_true, Bool.false_eq_true, if_false, dropped, view_put_self]
    | false =>
      simp only [Bool.false_eq_true, if_false, view_emitActivity_self]
      rw [view_emitTerminal_self _ rfl, dropped, view_put_self]
      rfl

end RunStateTracker

namespace RunView

theorem settle_over (view : RunView) (status : TerminalRunStatus) :
    (view.settle status).status ≠ some .pending := by
  cases status <;> simp [settle, TerminalRunStatus.toStatus]

end RunView

namespace RunStateTracker

variable {tracker : RunStateTracker σ} {runId : String}

theorem view_abortOnePending_self (now : Int) :
    (abortOnePending now tracker runId).view runId =
      (tracker.view runId).step .abortPending := by
  unfold abortOnePending
  cases found : tracker.records.get runId with
  | none => simp [RunView.step, view_status, found]
  | some =>
    simp only [RunView.step, view_status, found, Option.map_some, Option.some.injEq]
    split
    · exact view_settle rfl
    · rfl

theorem view_abortOnePending_other (apart : other ≠ runId) (now : Int) :
    (abortOnePending now tracker other).view runId = tracker.view runId := by
  unfold abortOnePending
  split
  · rfl
  · split
    · rw [view_emitTerminal_other _ apart, view_put_other _ apart]
    · rfl

theorem view_abortPending (now : Int) : (tracker.abortPending now).view runId =
      (tracker.view runId).step .abortPending := by
  rw [abortPending, OrderedMap.foldl_once (fun tracker => view tracker runId)
    (fun view => view.step .abortPending) (abortOnePending now) runId
    (fun _ => view_abortOnePending_self now)
    (fun _ _ apart => view_abortOnePending_other apart now)]
  · split
    · rfl
    · rename_i absent
      have none' := OrderedMap.get_eq_none.mpr absent
      simp [RunView.step, view_status, none']
  · intro view
    simp only [RunView.step]
    split
    · rw [if_neg (RunView.settle_over view .aborted)]
    · rfl

theorem pruneOne_self (olderThan : Int) :
    ((pruneOne olderThan tracker runId).records.get runId,
        (pruneOne olderThan tracker runId).reports) =
      (if (tracker.records.get runId).any (prunable olderThan) then none
        else tracker.records.get runId, tracker.reports) := by
  unfold pruneOne
  cases found : tracker.records.get runId with
  | none => simp [found]
  | some =>
    simp only [Option.any_some]
    split
    · simp [OrderedMap.get_delete]
    · simp [found]

theorem pruneOne_other (apart : other ≠ runId) (olderThan : Int) :
    ((pruneOne olderThan tracker other).records.get runId,
        (pruneOne olderThan tracker other).reports) =
      (tracker.records.get runId, tracker.reports) := by
  unfold pruneOne
  split
  · rfl
  · split
    · simp [OrderedMap.get_delete, apart.symm]
    · rfl

theorem prune_effect (olderThan : Int) :
    ((tracker.prune olderThan).records.get runId,
        (tracker.prune olderThan).reports) =
      (if (tracker.records.get runId).any (prunable olderThan) then none
        else tracker.records.get runId, tracker.reports) := by
  refine (OrderedMap.foldl_once
    (fun tracker : RunStateTracker σ => (tracker.records.get runId, tracker.reports))
    (fun seen => (if seen.1.any (prunable olderThan) then none else seen.1, seen.2))
    (pruneOne olderThan) runId (fun _ => pruneOne_self olderThan)
    (fun _ _ apart => pruneOne_other apart olderThan) ?_ _ tracker).trans ?_
  · rintro ⟨record, reports⟩
    simp only
    split
    · simp
    · rfl
  · split
    · rfl
    · rename_i absent
      have none' := OrderedMap.get_eq_none.mpr absent
      simp [none']

theorem view_prune (olderThan : Int) :
    (tracker.prune olderThan).view runId = (tracker.view runId).step
      (.prune ((tracker.records.get runId).any (prunable olderThan))) := by
  have effect := @prune_effect σ tracker runId olderThan
  rw [Prod.mk.injEq] at effect
  simp only [view, statusOf, reportsOf, effect.1, effect.2, RunView.step]
  split
  · rfl
  · rfl

section Other

variable {other : String} (apart : other ≠ runId)

include apart

theorem view_emitActivity_other (tracker : RunStateTracker σ)
    (kind : ActivityKind) (runKind : RunKind) :
    (tracker.emitActivity other kind runKind).view runId = tracker.view runId :=
  view_report_other tracker apart _

theorem view_declare_other (descriptor : RunDescriptor) :
    (tracker.declare other descriptor).view runId = tracker.view runId := by
  unfold declare
  split
  · rfl
  · exact view_put_other tracker apart _

theorem view_start_other (now : Int) (descriptor : RunDescriptor) :
    (tracker.start now other descriptor).view runId = tracker.view runId := by
  rw [start, view_emitActivity_other apart, view_put_other _ apart]

theorem view_suspend_other (state : Option σ) :
    (tracker.suspend other state).view runId = tracker.view runId := by
  unfold suspend
  split
  · rfl
  · rw [view_emitActivity_other apart, view_report_other _ apart,
      view_put_other _ apart]

theorem view_registerSuspended_other (descriptor : RunDescriptor)
    (state : Option σ) :
    (tracker.registerSuspended other descriptor state).view runId =
      tracker.view runId := by
  rw [registerSuspended, view_report_other _ apart, view_put_other _ apart]

theorem view_abort_other (now : Int) :
    (tracker.abort now other).2.view runId = tracker.view runId := by
  unfold abort
  split
  · rfl
  · split
    · rw [view_emitTerminal_other _ apart, view_put_other _ apart]
    · exact view_put_other tracker apart _

theorem view_complete_other (now : Int) (status : TerminalRunStatus)
    (err : Option Thrown) :
    (tracker.complete now other status err).view runId = tracker.view runId := by
  unfold complete
  split
  · rfl
  · rename_i record _
    have dropped : ∀ (tracker : RunStateTracker σ) (wasSuspended : Prop)
        [Decidable wasSuspended],
        (if wasSuspended then tracker.report other .settled else tracker).view
          runId = tracker.view runId := by
      intro tracker wasSuspended _
      split
      · exact view_report_other tracker apart _
      · rfl
    cases isTerminalStatus record.status with
    | true => simp only [if_true, dropped, view_put_other _ apart]
    | false =>
      simp only [Bool.false_eq_true, if_false, view_emitActivity_other apart,
        view_emitTerminal_other _ apart, dropped, view_put_other _ apart]

end Other

theorem view_step (operation : RunOperation σ) :
    (tracker.step operation).view runId =
      (tracker.view runId).step (operation.touch runId tracker) := by
  cases operation with
  | declare other descriptor =>
    rw [RunOperation.touch]
    split
    · subst other
      exact view_declare descriptor
    · exact view_declare_other (by assumption) descriptor
  | start now other descriptor =>
    rw [RunOperation.touch]
    split
    · subst other
      exact view_start now descriptor
    · exact view_start_other (by assumption) now descriptor
  | suspend other state =>
    rw [RunOperation.touch]
    split
    · subst other
      exact view_suspend state
    · exact view_suspend_other (by assumption) state
  | registerSuspended other descriptor state =>
    rw [RunOperation.touch]
    split
    · subst other
      exact view_registerSuspended descriptor state
    · exact view_registerSuspended_other (by assumption) descriptor state
  | abort now other =>
    rw [RunOperation.touch]
    split
    · subst other
      exact view_abort now
    · exact view_abort_other (by assumption) now
  | abortPending now => exact view_abortPending now
  | complete now other status err =>
    rw [RunOperation.touch]
    split
    · subst other
      exact view_complete now status err
    · exact view_complete_other (by assumption) now status err
  | prune olderThan => exact view_prune olderThan

theorem prunable_over (drops : prunable olderThan record = true) :
    isTerminalStatus record.status = true := by
  simp only [prunable, Bool.and_eq_true, decide_eq_true_eq] at drops
  obtain ⟨⟨⟨-, pending⟩, running⟩, awaiting⟩ := drops
  cases found : record.status with
  | pending => exact absurd found pending
  | running => exact absurd found running
  | awaitingApproval => exact absurd found awaiting
  | completed => rfl
  | failed => rfl
  | aborted => rfl

end RunStateTracker

def leadingEnds : List ActivityKind → Nat
  | .runEnd :: rest => leadingEnds rest + 1
  | _ => 0

/-- Every run-start is followed by exactly one run-end before the next one; the
last may still wait for its own while the run is not over. -/
def Answered (past : Prop) : List ActivityKind → Prop
  | [] => True
  | .runEnd :: rest => Answered past rest
  | .runStart :: rest =>
    (leadingEnds rest = 1 ∨ rest = [] ∧ ¬ past) ∧
      Answered past rest

def Unanswered (activity : List ActivityKind) : Prop :=
  activity.getLast? = some .runStart

theorem answered_over (activity : List ActivityKind) (ended : past) :
    Answered past activity ↔ Answered False activity ∧ ¬ Unanswered activity := by
  induction activity with
  | nil => simp [Answered, Unanswered]
  | cons kind rest ih =>
    cases kind with
    | runEnd =>
      rw [Answered, ih, Answered]
      cases rest <;> simp [Unanswered, List.getLast?_cons]
    | runStart =>
      rw [Answered, ih, Answered]
      cases rest with
      | nil => simp [Answered, Unanswered, ended, leadingEnds]
      | cons => simp [Unanswered, List.getLast?_cons, and_assoc]

theorem answered_waits (activity : List ActivityKind) (waits : ¬ past) :
    Answered past activity ↔ Answered False activity := by
  induction activity with
  | nil => simp [Answered]
  | cons kind _ ih =>
    cases kind with
    | runEnd => rw [Answered, ih, Answered]
    | runStart =>
      rw [Answered, ih, Answered]
      simp [waits]

theorem leadingEnds_start (activity : List ActivityKind) :
    leadingEnds (activity ++ [.runStart]) = leadingEnds activity := by
  induction activity with
  | nil => rfl
  | cons kind _ ih =>
    cases kind with
    | runEnd => rw [List.cons_append, leadingEnds, ih, leadingEnds]
    | runStart => rfl

theorem leadingEnds_end (activity : List ActivityKind) :
    leadingEnds (activity ++ [.runEnd]) =
      if .runStart ∈ activity then leadingEnds activity
      else activity.length + 1 := by
  induction activity with
  | nil => rfl
  | cons kind rest ih =>
    cases kind with
    | runStart => simp [leadingEnds]
    | runEnd =>
      rw [List.cons_append, leadingEnds, ih, leadingEnds]
      by_cases started : ActivityKind.runStart ∈ rest
      · simp [started]
      · simp [started]

theorem leadingEnds_all (unstarted : .runStart ∉ activity) :
    leadingEnds activity = activity.length := by
  induction activity with
  | nil => rfl
  | cons kind _ ih =>
    cases kind with
    | runStart => simp at unstarted
    | runEnd => simpa [leadingEnds] using ih (by simpa using unstarted)

theorem answered_start (activity : List ActivityKind) :
    Answered False (activity ++ [.runStart]) ↔
      Answered False activity ∧ ¬ Unanswered activity := by
  induction activity with
  | nil => simp [Answered, Unanswered]
  | cons kind rest ih =>
    cases kind with
    | runEnd =>
      rw [List.cons_append, Answered, ih, Answered]
      cases rest <;> simp [Unanswered, List.getLast?_cons]
    | runStart =>
      rw [List.cons_append, Answered, ih, Answered, leadingEnds_start]
      cases rest with
      | nil => simp [Unanswered, leadingEnds]
      | cons => simp [Unanswered, List.getLast?_cons, and_assoc]

def CanEnd (activity : List ActivityKind) : Prop :=
  Unanswered activity ∨ .runStart ∉ activity

theorem answered_end (activity : List ActivityKind) :
    Answered False (activity ++ [.runEnd]) ↔
      Answered False activity ∧ CanEnd activity := by
  induction activity with
  | nil => simp [Answered, CanEnd]
  | cons kind rest ih =>
    cases kind with
    | runEnd =>
      rw [List.cons_append, Answered, ih, Answered]
      cases rest <;> simp [CanEnd, Unanswered, List.getLast?_cons]
    | runStart =>
      rw [List.cons_append, Answered, ih, Answered, leadingEnds_end]
      cases rest with
      | nil => simp [Answered, CanEnd, Unanswered]
      | cons next rest =>
        by_cases started : ActivityKind.runStart ∈ next :: rest
        · simp [CanEnd, Unanswered, started, List.getLast?_cons, and_assoc]
        · have last : (next :: rest).getLast? ≠ some .runStart :=
            fun found => started (List.mem_of_getLast? found)
          have counted := leadingEnds_all started
          rw [if_neg started, counted]
          simp [CanEnd, Unanswered, last]

namespace RunView

def Active (view : RunView) : Prop :=
  view.status.any (fun status => !isTerminalStatus status) = true

/-- Whether a call is one the tracker gets right, for a run that has or has not
settled before. -/
def Admits (settled : Prop) (view : RunView) : Touch → Prop
  | .declare => view.status = none → ¬ settled
  | .start => ¬ settled ∧ ¬ Unanswered view.activity
  | .suspend => view.status ≠ none → ¬ settled ∧ CanEnd view.activity
  | .registerSuspended => ¬ settled
  | .abort => view.Active → ¬ Unanswered view.activity
  | .complete _ => view.Active → CanEnd view.activity
  | .abortPending => True
  | .prune _ => True
  | .nothing => True

structure SettlesOnce (settled : Prop) (view : RunView) : Prop where
  stays : settled → view.status ≠ none → view.Over
  once : settled → view.terminals.length = 1
  before : ¬ settled → view.terminals = []
  answered : Answered settled view.activity

/-- `SettlesOnce`, with what makes it last. -/
structure Kept (settled : Prop) (view : RunView) : Prop extends
    SettlesOnce settled view where
  past : view.Over → settled
  unstarted : view.status = some .pending ∨ (view.status = none ∧ ¬ settled) →
    .runStart ∉ view.activity

variable {view : RunView}

theorem over_not_active (past : view.Over) : ¬ view.Active := by
  cases found : view.status with
  | none => simp [Over, found] at past
  | some => simp_all [Over, Active]

theorem active_of_open (present : view.status ≠ none) (notOver : ¬ view.Over) :
    view.Active := by
  cases found : view.status with
  | none => exact absurd found present
  | some => simp_all [Over, Active]

variable {settled : Prop}

theorem Kept.fresh (kept : Kept settled view) (active : view.Active) : ¬ settled := by
  intro before
  refine over_not_active (kept.stays before ?_) active
  intro absent
  simp [Active, absent] at active

theorem settle_status (view : RunView) (status : TerminalRunStatus) :
    (view.settle status).Over := by
  cases status <;> rfl

theorem kept_open (waits : ¬ settled) (open' : ¬ later.Over) (silent : later.terminals = [])
    (answered : Answered False later.activity)
    (unstarted : later.status = some .pending ∨ later.status = none → .runStart ∉ later.activity)
    : Kept (settled ∨ later.Over) later := by
  have still : ¬ (settled ∨ later.Over) := fun either => either.elim waits open'
  exact {
    stays := fun before => absurd before still
    once := fun before => absurd before still
    before := fun _ => silent
    answered := (answered_waits _ still).mpr answered
    past := .inr
    unstarted := fun either => unstarted (either.imp_right And.left) }

theorem kept_over (past : later.Over) (once : later.terminals.length = 1)
    (answered : Answered False later.activity ∧ ¬ Unanswered later.activity) :
    Kept (settled ∨ later.Over) later := by
  refine {
    stays := fun _ _ => past
    once := fun _ => once
    before := fun waits => absurd (.inr past) waits
    answered := (answered_over _ (.inr past)).mpr answered
    past := .inr
    unstarted := ?_ }
  rintro (pending | ⟨absent, -⟩)
  · rw [Over, pending] at past
    cases past
  · rw [Over, absent] at past
    cases past

theorem unanswered_end (activity : List ActivityKind) :
    ¬ Unanswered (activity ++ [.runEnd]) := by
  simp [Unanswered]

theorem Kept.step {settled : Prop} {view : RunView} (kept : Kept settled view)
    {touch : Touch} (admitted : Admits settled view touch)
    (rests : touch = .prune true → view.status ≠ none → view.Over) :
    Kept (settled ∨ (view.step touch).Over) (view.step touch) := by
  have same : ∀ {later : RunView}, later = view →
      Kept (settled ∨ later.Over) later := by
    rintro later rfl
    have here : (settled ∨ later.Over) = settled :=
      propext ⟨fun either => either.elim id kept.past, .inl⟩
    rw [here]
    exact kept
  have plain : ¬ settled → Answered False view.activity := fun waits =>
    (answered_waits _ waits).mp kept.answered
  cases touch with
  | declare =>
    simp only [RunView.step]
    split
    · exact same rfl
    · rename_i absent
      have absent : view.status = none := by simpa using absent
      have waits := admitted absent
      exact kept_open waits (by simp [Over, enters, isTerminalStatus,
        RunStatus.terminal?]) (kept.before waits) (plain waits)
        fun _ => kept.unstarted (.inr ⟨absent, waits⟩)
  | start =>
    obtain ⟨waits, answered⟩ := admitted
    refine kept_open waits ?_ (kept.before waits) ?_ ?_
    · simp [RunView.step, Over, enters, emits, isTerminalStatus, RunStatus.terminal?]
    · exact (answered_start _).mpr ⟨plain waits, answered⟩
    · simp [RunView.step, enters, emits]
  | suspend =>
    simp only [RunView.step]
    split
    · rename_i present
      have present : view.status ≠ none := by
        intro absent
        simp [absent] at present
      obtain ⟨waits, ends⟩ := admitted present
      refine kept_open waits ?_ (kept.before waits) ?_ ?_
      · simp [Over, enters, emits, isTerminalStatus, RunStatus.terminal?]
      · exact (answered_end _).mpr ⟨plain waits, ends⟩
      · simp [enters, emits]
    · exact same rfl
  | registerSuspended =>
    refine kept_open admitted ?_ (kept.before admitted) (plain admitted) ?_
    · simp [RunView.step, Over, enters, isTerminalStatus, RunStatus.terminal?]
    · simp [RunView.step, enters]
  | abort =>
    simp only [RunView.step]
    split
    · rename_i active
      have waits := kept.fresh active
      refine kept_over (settle_status view .aborted) ?_ ⟨plain waits, admitted active⟩
      simp [settle, kept.before waits]
    · exact same rfl
  | abortPending =>
    simp only [RunView.step]
    split
    · rename_i pending
      have active : view.Active := by rw [Active, pending]; rfl
      have waits := kept.fresh active
      refine kept_over (settle_status view .aborted) ?_ ⟨plain waits, ?_⟩
      · simp [settle, kept.before waits]
      · exact fun found => kept.unstarted (.inl pending)
          (List.mem_of_getLast? found)
    · exact same rfl
  | complete status =>
    simp only [RunView.step]
    split
    · exact same rfl
    · rename_i present
      have present : view.status ≠ none := by simpa using present
      split
      · rename_i past
        have settled' := kept.past past
        refine kept_over ?_ (kept.once settled')
          ((answered_over _ settled').mp kept.answered)
        cases status <;> rfl
      · rename_i notOver
        have active := active_of_open present notOver
        have waits := kept.fresh active
        refine kept_over ?_ ?_ ⟨?_, unanswered_end _⟩
        · exact settle_status view status
        · simp [emits, settle, kept.before waits]
        · exact (answered_end _).mpr ⟨plain waits, admitted active⟩
  | prune dropped =>
    cases dropped with
    | false => exact same rfl
    | true =>
      by_cases present : view.status = none
      · refine same ?_
        simp only [RunView.step, if_true]
        rw [← present]
      · have settled' := kept.past (rests rfl present)
        exact {
          stays := fun _ present => absurd rfl present
          once := fun _ => kept.once settled'
          before := fun waits => absurd (.inl settled') waits
          answered := (answered_over _ (.inl settled')).mpr
            ((answered_over _ settled').mp kept.answered)
          past := .inr
          unstarted := by
            rintro (pending | ⟨-, waits⟩)
            · cases pending
            · exact absurd (.inl settled') waits }
  | nothing => exact same rfl

/-- A call that is not one of those is seen at once. -/
theorem refused_breaks (refused : ¬ Admits settled view touch) :
    ¬ SettlesOnce (settled ∨ (view.step touch).Over) (view.step touch) := by
  intro once
  have awaits : ∀ {later : RunView} {status : RunStatus},
      later.status = some status → isTerminalStatus status = false →
      SettlesOnce (settled ∨ later.Over) later → ¬ settled := by
    intro later status found rests keeps before
    have past := keeps.stays (.inl before) (by rw [found]; exact Option.some_ne_none _)
    rw [Over, found, Option.any_some, rests] at past
    cases past
  have plain : ∀ {later : RunView}, SettlesOnce (settled ∨ later.Over) later →
      Answered False later.activity := by
    intro later keeps
    by_cases before : settled ∨ later.Over
    · exact ((answered_over _ before).mp keeps.answered).1
    · exact (answered_waits _ before).mp keeps.answered
  cases touch with
  | declare =>
    obtain ⟨absent, before⟩ := Classical.not_imp.mp refused
    simp only [RunView.step, absent, Option.isSome_none, Bool.false_eq_true,
      if_false] at once
    exact before (awaits rfl rfl once)
  | start =>
    have waits := awaits rfl rfl once
    exact refused ⟨waits, ((answered_start _).mp (plain once)).2⟩
  | suspend =>
    obtain ⟨present, refused⟩ := Classical.not_imp.mp refused
    have found : view.status.isSome = true := Option.isSome_iff_ne_none.mpr present
    simp only [RunView.step, found, if_true] at once
    exact refused ⟨awaits rfl rfl once, ((answered_end _).mp (plain once)).2⟩
  | registerSuspended => exact refused (awaits rfl rfl once)
  | abort =>
    obtain ⟨active, open'⟩ := Classical.not_imp.mp refused
    have found : (view.status.any fun status => !isTerminalStatus status) = true :=
      active
    simp only [RunView.step, found, if_true] at once
    have answered := (answered_over _ (.inr (settle_status view .aborted))).mp
      once.answered
    exact open' answered.2
  | complete =>
    obtain ⟨active, refused⟩ := Classical.not_imp.mp refused
    have present : view.status ≠ none := by
      intro absent
      simp [Active, absent] at active
    have open' : view.status.any isTerminalStatus = false := by
      rw [← Bool.not_eq_true]
      exact fun past => over_not_active past active
    simp only [RunView.step, Option.isNone_iff_eq_none, present, if_false, open',
      Bool.false_eq_true] at once
    exact refused ((answered_end _).mp (plain once)).2
  | abortPending => exact refused trivial
  | prune => exact refused trivial
  | nothing => exact refused trivial

end RunView

open RunStateTracker

/-- The run has reached an end in some state so far. -/
def Settled (runId : String) (operations : List (RunOperation σ)) : Prop :=
  ∃ before after, operations = before ++ after ∧ ((play before).view runId).Over

theorem settled_concat (runId : String) (operations : List (RunOperation σ))
    (operation : RunOperation σ) : Settled runId (operations ++ [operation]) ↔
      Settled runId operations ∨
        ((play (operations ++ [operation])).view runId).Over := by
  constructor
  · rintro ⟨before, after, split, past⟩
    rcases List.eq_nil_or_concat after with rfl | ⟨after, last, rfl⟩
    · rw [List.append_nil] at split
      exact .inr (split ▸ past)
    · rw [List.concat_eq_append, ← List.append_assoc] at split
      obtain ⟨rest, -⟩ := List.append_inj' split rfl
      exact .inl ⟨before, after, rest, past⟩
  · rintro (⟨before, after, rfl, past⟩ | past)
    · exact ⟨before, after ++ [operation], by rw [List.append_assoc], past⟩
    · exact ⟨_, [], (List.append_nil _).symm, past⟩

/-- Every call so far is one the tracker gets right for this run. -/
def Follows (runId : String) (operations : List (RunOperation σ)) : Prop :=
  ∀ before operation after, operations = before ++ operation :: after →
    RunView.Admits (Settled runId before) ((play before).view runId)
      (operation.touch runId (play before))

def SettlesThroughout (runId : String) (operations : List (RunOperation σ)) :
    Prop :=
  ∀ before after, operations = before ++ after →
    RunView.SettlesOnce (Settled runId before) ((play before).view runId)

theorem kept_initially (runId : String) :
    RunView.Kept (Settled runId ([] : List (RunOperation σ)))
      ((play ([] : List (RunOperation σ))).view runId) := by
  have waits : ¬ Settled runId ([] : List (RunOperation σ)) := by
    rintro ⟨before, after, split, past⟩
    obtain ⟨rfl, rfl⟩ := List.append_eq_nil_iff.mp split.symm
    cases past
  exact {
    stays := fun before => absurd before waits
    once := fun before => absurd before waits
    before := fun _ => rfl
    answered := trivial
    past := fun past => by cases past
    unstarted := fun _ => List.not_mem_nil }

variable {runId : String}

variable {operation : RunOperation σ}

theorem touch_rests {tracker : RunStateTracker σ}
    (drops : operation.touch runId tracker = .prune true) :
    (tracker.view runId).status ≠ none → (tracker.view runId).Over := by
  intro _
  cases operation with
  | prune =>
    obtain ⟨record, found, drops⟩ :=
      (Option.any_eq_true _ _).mp (Touch.prune.inj drops)
    rw [RunView.Over, view_status, found]
    exact prunable_over drops
  | abortPending => cases drops
  | _ =>
    simp only [RunOperation.touch] at drops
    split at drops <;> cases drops

theorem kept_concat {operations : List (RunOperation σ)}
    (kept : RunView.Kept (Settled runId operations) ((play operations).view runId))
    (admitted : RunView.Admits (Settled runId operations) ((play operations).view runId)
      (operation.touch runId (play operations)))
    : RunView.Kept (Settled runId (operations ++ [operation]))
      ((play (operations ++ [operation])).view runId) := by
  have moved := kept.step admitted touch_rests
  rw [← view_step, ← play_concat] at moved
  rwa [propext (settled_concat runId operations operation)]

theorem kept_throughout (follows : Follows runId operations) :
    RunView.Kept (Settled runId operations) ((play operations).view runId) := by
  induction operations using List.reverseRecOn with
  | nil => exact kept_initially runId
  | append_singleton operations operation ih =>
    refine kept_concat (ih ?_) (follows operations operation [] rfl)
    intro before other after split
    exact follows before other (after ++ [operation]) (by rw [split]; simp)

/-- A run settles once exactly when it is not taken up again after it has
settled, not started twice without an end between, ended only when it was
started or never was, and aborted only when no start waits for its end. -/
theorem run_settles_once_iff (runId : String) (operations : List (RunOperation σ)) :
    SettlesThroughout runId operations ↔ Follows runId operations := by
  constructor
  · intro throughout
    induction operations using List.reverseRecOn with
    | nil =>
      intro before operation after split
      simp at split
    | append_singleton _ last ih =>
      intro before operation after split
      rcases List.eq_nil_or_concat after with rfl | ⟨after, other, rfl⟩
      · obtain ⟨rfl, same⟩ := List.append_inj' split rfl
        cases same
        by_contra refused
        refine RunView.refused_breaks refused ?_
        have once := throughout _ [] (List.append_nil _).symm
        rwa [propext (settled_concat runId _ _), play_concat, view_step] at once
      · rw [List.concat_eq_append, ← List.cons_append, ← List.append_assoc] at split
        obtain ⟨rest, -⟩ := List.append_inj' split rfl
        refine ih (fun before after split => ?_) before operation after rest
        exact throughout before (after ++ [last]) (by rw [split, List.append_assoc])
  · rintro follows before after rfl
    refine (kept_throughout ?_).toSettlesOnce
    rintro before' operation after' rfl
    exact follows before' operation (after' ++ after) (by simp)

/-- Aborted while the agent is still working, and suspended by it afterwards. -/
def abortedThenSuspended : List (RunOperation Unit) :=
  [.start 0 "run" (.agent "planner" none none), .abort 1 "run",
    .suspend "run" (some ())]

theorem aborted_run_suspends : ¬ SettlesThroughout "run" abortedThenSuspended := by
  intro throughout
  have once := throughout abortedThenSuspended [] rfl
  have settled : Settled "run" abortedThenSuspended :=
    ⟨abortedThenSuspended.take 2, abortedThenSuspended.drop 2, rfl, rfl⟩
  have past := once.stays settled (Option.some_ne_none _)
  exact absurd past (by decide)

end Graphorin.Server
