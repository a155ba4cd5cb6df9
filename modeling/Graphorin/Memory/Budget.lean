import Graphorin.Memory.Consolidation
import Mathlib.Algebra.Order.BigOperators.Group.List
import Mathlib.Algebra.Order.Ring.Rat
import Mathlib.Tactic.NormNum

namespace Graphorin.Memory

/-! The budget of the consolidator: two counters, a paused flag and, under the sliding
window, the ledger the counters are taken from. Time is in milliseconds of the epoch. -/

structure Ceilings where
  maxTokensPerDay : Rat
  maxCostPerDay : Rat
  deriving DecidableEq

inductive OnBudgetExceed
  | pause
  | log
  | throw
  deriving DecidableEq

inductive Resource
  | tokens
  | cost
  deriving DecidableEq

inductive BudgetRefusal
  | tokensExceeded
  | costExceeded
  deriving DecidableEq

def Resource.refusal : Resource → BudgetRefusal
  | .tokens => .tokensExceeded
  | .cost => .costExceeded

structure HostCalendar where
  midnight : Int → Int
  ordered : ∀ {earlier later : Int}, earlier ≤ later → midnight earlier ≤ midnight later

inductive ResetSemantics
  | utc
  | hostLocal (calendar : HostCalendar)
  | sliding24h

def dayMs : Int := 24 * 60 * 60 * 1000

def ResetSemantics.bucketStart (now : Int) : ResetSemantics → Int
  | .utc => now / dayMs * dayMs
  | .hostLocal calendar => calendar.midnight now
  | .sliding24h => now

def nextBucketStart (bucket : Int) : Int := bucket + dayMs

structure BudgetCheck where
  allowed : Bool
  reason : Option BudgetRefusal := none
  deriving DecidableEq

structure BudgetSnapshot where
  tokensUsedToday : Rat
  costUsedToday : Rat
  tokensRemaining : Rat
  costRemaining : Rat
  resetAt : Int
  paused : Bool
  deriving DecidableEq

structure BudgetExceeded where
  phase : Phase
  resource : Resource
  actual : Rat
  budget : Rat
  deriving DecidableEq

structure Spend where
  spentAt : Int
  tokens : Rat
  cost : Rat
  deriving DecidableEq

structure BudgetTracker where
  ceilings : Ceilings
  bucketStart : Int
  tokens : Rat := 0
  cost : Rat := 0
  paused : Bool := false
  pausedReason : Option BudgetRefusal := none
  warnedThisWindow : List Resource := []
  ledger : List Spend := []
  deriving DecidableEq

structure BudgetOptions where
  onExceed : OnBudgetExceed
  resetSemantics : ResetSemantics

namespace BudgetTracker

def within (tracker : BudgetTracker) : Bool :=
  decide (tracker.tokens ≤ tracker.ceilings.maxTokensPerDay) &&
    decide (tracker.cost ≤ tracker.ceilings.maxCostPerDay)

def unpause (tracker : BudgetTracker) : BudgetTracker :=
  { tracker with paused := false, pausedReason := none }

def relax (tracker : BudgetTracker) : BudgetTracker :=
  if tracker.paused && tracker.within then tracker.unpause else tracker

def rearm (tracker : BudgetTracker) : BudgetTracker :=
  if tracker.within then { tracker with warnedThisWindow := [] } else tracker

def reconfigure (tracker : BudgetTracker) (ceilings : Ceilings) : BudgetTracker :=
  { tracker with ceilings }.relax

/-- The ledger is in the order of the clock, so its first entry is its oldest. -/
def trimmed (ledger : List Spend) (cutoff : Int) : List Spend :=
  match ledger with
  | [] => []
  | first :: rest =>
    if first.spentAt ≤ cutoff then
      (first :: rest).filter fun entry => cutoff < entry.spentAt
    else first :: rest

variable (options : BudgetOptions)

def opened (ceilings : Ceilings) (now : Int) : BudgetTracker :=
  { ceilings, bucketStart := options.resetSemantics.bucketStart now }

def recount (tracker : BudgetTracker) (ledger : List Spend) : BudgetTracker :=
  { tracker with
    ledger
    tokens := (ledger.map Spend.tokens).sum
    cost := (ledger.map Spend.cost).sum }

def slide (tracker : BudgetTracker) (now : Int) : BudgetTracker :=
  (tracker.recount (trimmed tracker.ledger (now - dayMs))).relax.rearm

def rollOver (tracker : BudgetTracker) (now : Int) : BudgetTracker :=
  let currentBucket := options.resetSemantics.bucketStart now
  if currentBucket = tracker.bucketStart then tracker
  else { tracker.unpause with
    bucketStart := currentBucket, tokens := 0, cost := 0, warnedThisWindow := [] }

def maybeReset (tracker : BudgetTracker) (now : Int) : BudgetTracker :=
  match options.resetSemantics with
  | .sliding24h => tracker.slide now
  | .utc | .hostLocal _ => tracker.rollOver options now

def precheck (tracker : BudgetTracker) (phase : Phase) (now : Int) :
    BudgetTracker × BudgetCheck :=
  let tracker := tracker.maybeReset options now
  let check : BudgetCheck :=
    if phase = .light then { allowed := true }
    else if tracker.paused then
      { allowed := false, reason := some (tracker.pausedReason.getD .costExceeded) }
    else if tracker.ceilings.maxTokensPerDay ≤ 0 then
      { allowed := false, reason := some .tokensExceeded }
    else if tracker.ceilings.maxCostPerDay ≤ 0 then
      { allowed := false, reason := some .costExceeded }
    else { allowed := true }
  (tracker, check)

def snapshot (tracker : BudgetTracker) (now : Int) : BudgetTracker × BudgetSnapshot :=
  let tracker := tracker.maybeReset options now
  let resetAt := match options.resetSemantics with
    | .sliding24h => (tracker.ledger.head?.elim now Spend.spentAt) + dayMs
    | .utc | .hostLocal _ => nextBucketStart tracker.bucketStart
  (tracker,
    { tokensUsedToday := tracker.tokens
      costUsedToday := tracker.cost
      tokensRemaining := max 0 (tracker.ceilings.maxTokensPerDay - tracker.tokens)
      costRemaining := max 0 (tracker.ceilings.maxCostPerDay - tracker.cost)
      resetAt
      paused := tracker.paused })

def handleBreach (tracker : BudgetTracker) (phase : Phase) (resource : Resource)
    (actual budget : Rat) : Except BudgetExceeded BudgetTracker :=
  match options.onExceed with
  | .throw => .error { phase, resource, actual, budget }
  | .pause => .ok { tracker with paused := true, pausedReason := some resource.refusal }
  | .log =>
    if resource ∈ tracker.warnedThisWindow then .ok tracker
    else .ok { tracker with warnedThisWindow := resource :: tracker.warnedThisWindow }

def charge (tracker : BudgetTracker) (spend : Spend) : BudgetTracker :=
  { tracker with
    ledger := match options.resetSemantics with
      | .sliding24h => tracker.ledger ++ [spend]
      | .utc | .hostLocal _ => tracker.ledger
    tokens := tracker.tokens + spend.tokens
    cost := tracker.cost + spend.cost }

def enforce (tracker : BudgetTracker) (phase : Phase) :
    Except BudgetExceeded BudgetTracker := do
  let tracker ←
    if tracker.ceilings.maxTokensPerDay < tracker.tokens then
      tracker.handleBreach options phase .tokens tracker.tokens
        tracker.ceilings.maxTokensPerDay
    else pure tracker
  if tracker.ceilings.maxCostPerDay < tracker.cost then
    tracker.handleBreach options phase .cost tracker.cost tracker.ceilings.maxCostPerDay
  else pure tracker

end BudgetTracker

/-- The instants `record` reads the clock at: to roll the window over, to date the ledger
entry and to take the snapshot. -/
structure RecordClock where
  reset : Int
  ledger : Int
  snapshot : Int
  deriving DecidableEq

def RecordClock.spentAt (clock : RecordClock) : ResetSemantics → Int
  | .sliding24h => clock.ledger
  | .utc | .hostLocal _ => clock.reset

section Calls

variable (options : BudgetOptions)

def BudgetTracker.record (tracker : BudgetTracker) (phase : Phase) (tokens costUsd : Rat)
    (clock : RecordClock) : BudgetTracker × Except BudgetExceeded BudgetSnapshot :=
  let tracker := tracker.maybeReset options clock.reset
  let charged := tracker.charge options
    ⟨clock.spentAt options.resetSemantics, max 0 tokens, max 0 costUsd⟩
  match charged.enforce options phase with
  | .error exceeded => (charged, .error exceeded)
  | .ok tracker =>
    let (tracker, snapshot) := tracker.snapshot options clock.snapshot
    (tracker, .ok snapshot)

inductive BudgetCall
  | precheck (phase : Phase) (now : Int)
  | record (phase : Phase) (tokens costUsd : Rat) (clock : RecordClock)
  | reconfigure (ceilings : Ceilings)
  | snapshot (now : Int)
  deriving DecidableEq

namespace BudgetCall

def step (tracker : BudgetTracker) : BudgetCall → BudgetTracker
  | .precheck phase now => (tracker.precheck options phase now).1
  | .record phase tokens costUsd clock =>
    (tracker.record options phase tokens costUsd clock).1
  | .reconfigure ceilings => tracker.reconfigure ceilings
  | .snapshot now => (tracker.snapshot options now).1

def instants : BudgetCall → List Int
  | .precheck _ now | .snapshot now => [now]
  | .record _ _ _ clock => [clock.reset, clock.ledger, clock.snapshot]
  | .reconfigure _ => []

def spends : BudgetCall → List Spend
  | .record _ tokens costUsd clock =>
    [⟨clock.spentAt options.resetSemantics, max 0 tokens, max 0 costUsd⟩]
  | _ => []

end BudgetCall

def BudgetTracker.run (tracker : BudgetTracker) (calls : List BudgetCall) : BudgetTracker :=
  calls.foldl (BudgetCall.step options) tracker

end Calls

/-! What the budget is for: everything that was ever recorded, each amount with its instant,
and the window it is looked at through. -/

structure Usage where
  tokens : Rat
  cost : Rat
  deriving DecidableEq

def Usage.Within (usage : Usage) (ceilings : Ceilings) : Prop :=
  usage.tokens ≤ ceilings.maxTokensPerDay ∧ usage.cost ≤ ceilings.maxCostPerDay

def Usage.total (spends : List Spend) : Usage :=
  ⟨(spends.map Spend.tokens).sum, (spends.map Spend.cost).sum⟩

def Ceilings.Positive (ceilings : Ceilings) : Prop :=
  0 < ceilings.maxTokensPerDay ∧ 0 < ceilings.maxCostPerDay

def ResetSemantics.inside (semantics : ResetSemantics) (spentAt now : Int) : Bool :=
  match semantics with
  | .sliding24h => now - dayMs < spentAt
  | .utc => utc.bucketStart spentAt = utc.bucketStart now
  | .hostLocal calendar =>
    (hostLocal calendar).bucketStart spentAt = (hostLocal calendar).bucketStart now

def ResetSemantics.window (semantics : ResetSemantics) (spends : List Spend) (now : Int) :
    List Spend :=
  spends.filter fun spend => semantics.inside spend.spentAt now

def ResetSemantics.usage (semantics : ResetSemantics) (spends : List Spend) (now : Int) :
    Usage :=
  .total (semantics.window spends now)

structure Account where
  spends : List Spend := []
  seen : Int
  ceilings : Ceilings
  deriving DecidableEq

namespace Account

variable (options : BudgetOptions)

def step (account : Account) (call : BudgetCall) : Account where
  spends := account.spends ++ call.spends options
  seen := call.instants.getLast?.getD account.seen
  ceilings := match call with
    | .reconfigure ceilings => ceilings
    | _ => account.ceilings

def run (account : Account) (calls : List BudgetCall) : Account :=
  calls.foldl (step options) account

def usage (account : Account) : Usage :=
  options.resetSemantics.usage account.spends account.seen

/-- A condition on each call and the account it finds. -/
def Along (condition : Account → BudgetCall → Prop) : Account → List BudgetCall → Prop
  | _, [] => True
  | account, call :: calls =>
    condition account call ∧ Along condition (account.step options call) calls

/-- The clock does not go back. -/
def Timely (account : Account) (call : BudgetCall) : Prop :=
  (account.seen :: call.instants).Pairwise (· ≤ ·)

instance (account : Account) (call : BudgetCall) : Decidable (account.Timely call) :=
  inferInstanceAs (Decidable (List.Pairwise _ _))

/-- No ceiling is put below a usage the ceilings before it allowed. -/
def Careful (account : Account) : BudgetCall → Prop
  | .reconfigure ceilings =>
    (account.usage options).Within account.ceilings →
      (account.usage options).Within ceilings
  | _ => True

end Account

theorem Usage.total_append (spends : List Spend) (spend : Spend) :
    Usage.total (spends ++ [spend]) =
      ⟨(Usage.total spends).tokens + spend.tokens, (Usage.total spends).cost + spend.cost⟩ := by
  simp only [Usage.total, List.map_append, List.map_singleton, List.sum_append,
    List.sum_singleton]

namespace ResetSemantics

variable (semantics : ResetSemantics)

theorem bucketStart_ordered (ordered : earlier ≤ later) :
    semantics.bucketStart earlier ≤ semantics.bucketStart later := by
  cases semantics with
  | utc =>
    exact Int.mul_le_mul_of_nonneg_right
      (Int.ediv_le_ediv (by decide) ordered) (by decide)
  | hostLocal calendar => exact calendar.ordered ordered
  | sliding24h => exact ordered

theorem inside_iff {semantics : ResetSemantics} (calendar : semantics ≠ .sliding24h)
    {spentAt now : Int} : semantics.inside spentAt now = true ↔
      semantics.bucketStart spentAt = semantics.bucketStart now := by
  cases semantics with
  | utc => exact decide_eq_true_iff
  | hostLocal => exact decide_eq_true_iff
  | sliding24h => exact absurd rfl calendar

variable {now : Int}

theorem inside_self (later : now ≤ spentAt)
    (calendar : semantics ≠ .sliding24h → spentAt = now) :
    semantics.inside spentAt now = true := by
  by_cases sliding : semantics = .sliding24h
  · subst sliding
    refine decide_eq_true (lt_of_lt_of_le ?_ later)
    rw [dayMs]
    omega
  · rw [inside_iff sliding, calendar sliding]

theorem inside_of_later (spent : semantics ≠ .sliding24h → spentAt ≤ seen)
    (ordered : seen ≤ now) (inside : semantics.inside spentAt now = true) :
    semantics.inside spentAt seen = true := by
  by_cases sliding : semantics = .sliding24h
  · subst sliding
    have later := of_decide_eq_true inside
    exact decide_eq_true (by omega)
  · rw [inside_iff sliding] at inside ⊢
    refine le_antisymm (semantics.bucketStart_ordered (spent sliding)) ?_
    rw [inside]
    exact semantics.bucketStart_ordered ordered

theorem window_window
    (spent : semantics ≠ .sliding24h → ∀ spend ∈ spends, spend.spentAt ≤ seen)
    (ordered : seen ≤ now) :
    semantics.window (semantics.window spends seen) now = semantics.window spends now := by
  rw [window, window, window, List.filter_filter]
  refine List.filter_congr fun spend member => ?_
  cases inside : semantics.inside spend.spentAt now with
  | false => exact Bool.false_and _
  | true =>
    rw [semantics.inside_of_later (fun calendar => spent calendar spend member) ordered inside]
    rfl

end ResetSemantics

theorem BudgetTracker.trimmed_eq {ledger : List Spend} (cutoff : Int)
    (sorted : ledger.Pairwise fun first second => first.spentAt ≤ second.spentAt) :
    trimmed ledger cutoff = ledger.filter fun entry => cutoff < entry.spentAt := by
  cases ledger with
  | nil => rfl
  | cons first rest =>
    rw [trimmed]
    split
    · rfl
    · rename_i young
      refine (List.filter_eq_self.mpr fun entry member => ?_).symm
      have later : first.spentAt ≤ entry.spentAt := by
        rcases List.mem_cons.mp member with rfl | member
        · exact le_rfl
        · exact List.rel_of_pairwise_cons sorted member
      exact decide_eq_true (by omega)

section Keeping

variable (options : BudgetOptions)

structure Tallies (spends : List Spend) (seen : Int) (tracker : BudgetTracker) : Prop where
  usage : options.resetSemantics.usage spends seen = ⟨tracker.tokens, tracker.cost⟩
  sliding : options.resetSemantics = .sliding24h →
    tracker.ledger = options.resetSemantics.window spends seen
  calendar : options.resetSemantics ≠ .sliding24h →
    tracker.bucketStart = options.resetSemantics.bucketStart seen ∧
      ∀ spend ∈ spends, spend.spentAt ≤ seen

/-- A tracker is paused only while its counters are past a ceiling. -/
def BudgetTracker.Honest (tracker : BudgetTracker) : Prop :=
  tracker.paused = true → tracker.within = false

def BudgetTracker.Watchful (tracker : BudgetTracker) : Prop :=
  tracker.paused = false →
    tracker.within = true ∨ (tracker.tokens ≤ 0 ∧ tracker.cost ≤ 0)

namespace BudgetTracker

theorem relax_eq (tracker : BudgetTracker) :
    ∃ reason, tracker.relax = { tracker with
      paused := tracker.paused && !tracker.within, pausedReason := reason } := by
  rw [relax]
  split
  · rename_i calm
    rw [Bool.and_eq_true] at calm
    rw [calm.2, Bool.not_true, Bool.and_false]
    exact ⟨none, rfl⟩
  · rename_i calm
    refine ⟨tracker.pausedReason, ?_⟩
    cases paused : tracker.paused with
    | false => rw [Bool.false_and, ← paused]
    | true =>
      rw [paused, Bool.true_and, Bool.not_eq_true] at calm
      rw [calm, Bool.not_false, Bool.and_true, ← paused]

theorem rearm_eq (tracker : BudgetTracker) :
    ∃ warned, tracker.rearm = { tracker with warnedThisWindow := warned } := by
  rw [rearm]
  split
  · exact ⟨[], rfl⟩
  · exact ⟨tracker.warnedThisWindow, rfl⟩

theorem slide_eq (tracker : BudgetTracker) (now : Int) :
    ∃ reason warned,
      let counted := tracker.recount (trimmed tracker.ledger (now - dayMs))
      tracker.slide now = { counted with
        paused := tracker.paused && !counted.within
        pausedReason := reason, warnedThisWindow := warned } := by
  obtain ⟨reason, relaxed⟩ := relax_eq (tracker.recount (trimmed tracker.ledger (now - dayMs)))
  obtain ⟨warned, rearmed⟩ := rearm_eq
    (tracker.recount (trimmed tracker.ledger (now - dayMs))).relax
  refine ⟨reason, warned, ?_⟩
  rw [slide, rearmed, relaxed]
  rfl

theorem maybeReset_sliding (sliding : options.resetSemantics = .sliding24h)
    (tracker : BudgetTracker) (now : Int) :
    tracker.maybeReset options now = tracker.slide now := by
  rw [maybeReset, sliding]

theorem maybeReset_calendar (calendar : options.resetSemantics ≠ .sliding24h)
    (tracker : BudgetTracker) (now : Int) :
    tracker.maybeReset options now = tracker.rollOver options now := by
  rw [maybeReset]
  split
  · rename_i sliding
    exact absurd sliding calendar
  · rfl
  · rfl

variable {tracker : BudgetTracker}

theorem rollOver_of_same
    (same : options.resetSemantics.bucketStart now = tracker.bucketStart) :
    tracker.rollOver options now = tracker :=
  if_pos same

theorem rollOver_of_ne
    (other : options.resetSemantics.bucketStart now ≠ tracker.bucketStart) :
    tracker.rollOver options now = { tracker.unpause with
      bucketStart := options.resetSemantics.bucketStart now
      tokens := 0, cost := 0, warnedThisWindow := [] } :=
  if_neg other

theorem within_iff (tracker : BudgetTracker) :
    tracker.within = true ↔ Usage.Within ⟨tracker.tokens, tracker.cost⟩ tracker.ceilings := by
  rw [within, Bool.and_eq_true, decide_eq_true_iff, decide_eq_true_iff, Usage.Within]

theorem maybeReset_ceilings (tracker : BudgetTracker) (now : Int) :
    (tracker.maybeReset options now).ceilings = tracker.ceilings := by
  by_cases sliding : options.resetSemantics = .sliding24h
  · obtain ⟨_, _, slid⟩ := slide_eq tracker now
    rw [maybeReset_sliding options sliding, slid]
    rfl
  · rw [maybeReset_calendar options sliding, rollOver]
    dsimp only
    split
    · rfl
    · rfl

theorem maybeReset_honest (honest : tracker.Honest) (now : Int) :
    (tracker.maybeReset options now).Honest := by
  by_cases sliding : options.resetSemantics = .sliding24h
  · obtain ⟨_, _, slid⟩ := slide_eq tracker now
    rw [maybeReset_sliding options sliding, slid]
    intro paused
    exact (Bool.not_eq_true' _).mp ((Bool.and_eq_true _ _).mp paused).2
  · rw [maybeReset_calendar options sliding]
    by_cases same : options.resetSemantics.bucketStart now = tracker.bucketStart
    · rw [rollOver_of_same options same]
      exact honest
    · rw [rollOver_of_ne options same]
      intro paused
      cases paused

theorem maybeReset_paused (calm : tracker.paused = false) (now : Int) :
    (tracker.maybeReset options now).paused = false := by
  by_cases sliding : options.resetSemantics = .sliding24h
  · obtain ⟨_, _, slid⟩ := slide_eq tracker now
    rw [maybeReset_sliding options sliding, slid]
    exact Bool.and_eq_false_imp.mpr fun paused => absurd (calm.symm.trans paused) (by decide)
  · rw [maybeReset_calendar options sliding, rollOver]
    dsimp only
    split
    · exact calm
    · rfl

end BudgetTracker

structure Account.Dated (account : Account) : Prop where
  sorted : account.spends.Pairwise fun first second => first.spentAt ≤ second.spentAt
  spent : ∀ spend ∈ account.spends, spend.spentAt ≤ account.seen
  positive : ∀ spend ∈ account.spends, 0 ≤ spend.tokens ∧ 0 ≤ spend.cost

variable {spends : List Spend} {seen now : Int} {tracker : BudgetTracker}

theorem maybeReset_kept (kept : Tallies options spends seen tracker) (ordered : seen ≤ now)
    (sorted : spends.Pairwise fun first second => first.spentAt ≤ second.spentAt) :
    Tallies options spends now (tracker.maybeReset options now) := by
  have inner : options.resetSemantics.window (options.resetSemantics.window spends seen) now =
      options.resetSemantics.window spends now :=
    options.resetSemantics.window_window (fun calendar => (kept.calendar calendar).2) ordered
  by_cases sliding : options.resetSemantics = .sliding24h
  · have trimmed : BudgetTracker.trimmed tracker.ledger (now - dayMs) =
        options.resetSemantics.window spends now := by
      rw [← inner, ← kept.sliding sliding,
        BudgetTracker.trimmed_eq _ (kept.sliding sliding ▸ sorted.filter _), sliding]
      rfl
    obtain ⟨_, _, slid⟩ := tracker.slide_eq now
    rw [BudgetTracker.maybeReset_sliding options sliding, slid, trimmed]
    exact ⟨rfl, fun _ => rfl, fun calendar => absurd sliding calendar⟩
  · rw [BudgetTracker.maybeReset_calendar options sliding]
    obtain ⟨current, spent⟩ := kept.calendar sliding
    have later : ∀ spend ∈ spends, spend.spentAt ≤ now :=
      fun spend member => (spent spend member).trans ordered
    by_cases same : options.resetSemantics.bucketStart now = tracker.bucketStart
    · rw [BudgetTracker.rollOver_of_same options same]
      refine ⟨?_, fun slides => absurd slides sliding, fun _ => ⟨same.symm, later⟩⟩
      have windows : options.resetSemantics.window spends now =
          options.resetSemantics.window spends seen := by
        refine List.filter_congr fun spend _ => Bool.eq_iff_iff.mpr ?_
        rw [ResetSemantics.inside_iff sliding, ResetSemantics.inside_iff sliding, same, current]
      rw [← kept.usage, ResetSemantics.usage, windows, ResetSemantics.usage]
    · rw [BudgetTracker.rollOver_of_ne options same]
      refine ⟨?_, fun slides => absurd slides sliding, fun _ => ⟨rfl, later⟩⟩
      have empty : options.resetSemantics.window spends now = [] := by
        refine List.filter_eq_nil_iff.mpr fun spend member inside => same ?_
        have before := options.resetSemantics.inside_of_later
          (fun _ => spent spend member) ordered inside
        rw [ResetSemantics.inside_iff sliding] at inside before
        rw [← inside, before, current]
      rw [ResetSemantics.usage, empty]
      rfl

theorem usage_le (kept : Tallies options spends seen tracker) (ordered : seen ≤ now)
    (positive : ∀ spend ∈ spends, 0 ≤ spend.tokens ∧ 0 ≤ spend.cost) :
    (options.resetSemantics.usage spends now).tokens ≤ tracker.tokens ∧
      (options.resetSemantics.usage spends now).cost ≤ tracker.cost := by
  have inner := options.resetSemantics.window_window
    (fun calendar => (kept.calendar calendar).2) ordered
  have fewer : (options.resetSemantics.window spends now).Sublist
      (options.resetSemantics.window spends seen) := by
    rw [← inner]
    exact List.filter_sublist
  have usage := kept.usage
  rw [ResetSemantics.usage, Usage.total, Usage.mk.injEq] at usage
  rw [← usage.1, ← usage.2]
  constructor
  · refine (fewer.map _).sum_le_sum fun amount member => ?_
    obtain ⟨spend, inside, rfl⟩ := List.mem_map.mp member
    exact (positive spend (List.mem_of_mem_filter inside)).1
  · refine (fewer.map _).sum_le_sum fun amount member => ?_
    obtain ⟨spend, inside, rfl⟩ := List.mem_map.mp member
    exact (positive spend (List.mem_of_mem_filter inside)).2

theorem charge_kept (kept : Tallies options spends now tracker)
    (later : now ≤ spend.spentAt)
    (calendar : options.resetSemantics ≠ .sliding24h → spend.spentAt = now) :
    Tallies options (spends ++ [spend]) now (tracker.charge options spend) := by
  have window : options.resetSemantics.window (spends ++ [spend]) now =
      options.resetSemantics.window spends now ++ [spend] := by
    rw [ResetSemantics.window, List.filter_append]
    refine congrArg _ (List.filter_eq_self.mpr fun entry member => ?_)
    rw [List.mem_singleton.mp member]
    exact options.resetSemantics.inside_self later calendar
  have usage := kept.usage
  rw [ResetSemantics.usage] at usage
  constructor
  · rw [ResetSemantics.usage, window, Usage.total_append, usage]
    rfl
  · intro sliding
    rw [window, ← kept.sliding sliding, BudgetTracker.charge, sliding]
  · intro isCalendar
    obtain ⟨current, spent⟩ := kept.calendar isCalendar
    refine ⟨current, ?_⟩
    rw [List.forall_mem_append, List.forall_mem_singleton]
    exact ⟨spent, (calendar isCalendar).le⟩

theorem handleBreach_of_pause (pause : options.onExceed = .pause) (tracker : BudgetTracker)
    (phase : Phase) (resource : Resource) (actual budget : Rat) :
    tracker.handleBreach options phase resource actual budget =
      .ok { tracker with paused := true, pausedReason := some resource.refusal } := by
  rw [BudgetTracker.handleBreach, pause]

theorem handleBreach_of_log (log : options.onExceed = .log) (tracker : BudgetTracker)
    (phase : Phase) (resource : Resource) (actual budget : Rat) :
    ∃ warned, tracker.handleBreach options phase resource actual budget =
      .ok { tracker with warnedThisWindow := warned } := by
  rw [BudgetTracker.handleBreach, log]
  dsimp only
  split
  · exact ⟨tracker.warnedThisWindow, rfl⟩
  · exact ⟨_, rfl⟩

theorem handleBreach_of_throw (throw : options.onExceed = .throw) (tracker : BudgetTracker)
    (phase : Phase) (resource : Resource) (actual budget : Rat) :
    tracker.handleBreach options phase resource actual budget =
      .error { phase, resource, actual, budget } := by
  rw [BudgetTracker.handleBreach, throw]

theorem within_false_iff (tracker : BudgetTracker) :
    tracker.within = false ↔ tracker.ceilings.maxTokensPerDay < tracker.tokens ∨
      tracker.ceilings.maxCostPerDay < tracker.cost := by
  rw [← Bool.not_eq_true, BudgetTracker.within_iff, Usage.Within, not_and_or, not_le, not_le]

theorem enforce_of_pause (pause : options.onExceed = .pause) (tracker : BudgetTracker)
    (phase : Phase) :
    ∃ reason, tracker.enforce options phase = .ok { tracker with
      paused := tracker.paused || !tracker.within, pausedReason := reason } := by
  have breached := handleBreach_of_pause options pause
  rw [BudgetTracker.enforce]
  simp only [breached]
  cases within : tracker.within with
  | true =>
    obtain ⟨tokens, cost⟩ := (BudgetTracker.within_iff tracker).mp within
    rw [if_neg (not_lt.mpr tokens), pure_bind, if_neg (not_lt.mpr cost), Bool.not_true,
      Bool.or_false]
    exact ⟨_, rfl⟩
  | false =>
    rw [Bool.not_false, Bool.or_true]
    by_cases tokens : tracker.ceilings.maxTokensPerDay < tracker.tokens
    · rw [if_pos tokens]
      by_cases cost : tracker.ceilings.maxCostPerDay < tracker.cost
      · exact ⟨_, if_pos cost⟩
      · exact ⟨_, if_neg cost⟩
    · have cost := ((within_false_iff tracker).mp within).resolve_left tokens
      rw [if_neg tokens]
      exact ⟨_, if_pos cost⟩

theorem enforce_of_log (log : options.onExceed = .log) (tracker : BudgetTracker)
    (phase : Phase) : ∃ warned, tracker.enforce options phase =
      .ok { tracker with warnedThisWindow := warned } := by
  have breached := fun (tracker : BudgetTracker) (resource : Resource) (actual budget : Rat) =>
    handleBreach_of_log options log tracker phase resource actual budget
  rw [BudgetTracker.enforce]
  by_cases tokens : tracker.ceilings.maxTokensPerDay < tracker.tokens
  · obtain ⟨warned, first⟩ := breached tracker .tokens tracker.tokens
      tracker.ceilings.maxTokensPerDay
    rw [if_pos tokens, first]
    by_cases cost : tracker.ceilings.maxCostPerDay < tracker.cost
    · obtain ⟨both, second⟩ := breached { tracker with warnedThisWindow := warned } .cost
        tracker.cost tracker.ceilings.maxCostPerDay
      exact ⟨both, (if_pos cost).trans second⟩
    · exact ⟨warned, if_neg cost⟩
  · rw [if_neg tokens]
    by_cases cost : tracker.ceilings.maxCostPerDay < tracker.cost
    · obtain ⟨warned, second⟩ := breached tracker .cost tracker.cost
        tracker.ceilings.maxCostPerDay
      exact ⟨warned, (if_pos cost).trans second⟩
    · exact ⟨_, if_neg cost⟩

theorem enforce_of_throw (throw : options.onExceed = .throw) (tracker : BudgetTracker)
    (phase : Phase) :
    (tracker.within = true ∧ tracker.enforce options phase = .ok tracker) ∨
      (tracker.within = false ∧ ∃ exceeded, tracker.enforce options phase = .error exceeded) := by
  have breached := handleBreach_of_throw options throw
  rw [BudgetTracker.enforce]
  simp only [breached]
  cases within : tracker.within with
  | true =>
    obtain ⟨tokens, cost⟩ := (BudgetTracker.within_iff tracker).mp within
    rw [if_neg (not_lt.mpr tokens), pure_bind, if_neg (not_lt.mpr cost)]
    exact Or.inl ⟨rfl, rfl⟩
  | false =>
    refine Or.inr ⟨rfl, ?_⟩
    by_cases tokens : tracker.ceilings.maxTokensPerDay < tracker.tokens
    · rw [if_pos tokens]
      exact ⟨_, rfl⟩
    · have cost := ((within_false_iff tracker).mp within).resolve_left tokens
      rw [if_neg tokens]
      exact ⟨_, if_pos cost⟩

variable {phase : Phase}

theorem enforce_ok (checked : tracker.enforce options phase = .ok enforced) :
    ∃ paused reason warned, enforced = { tracker with
      paused, pausedReason := reason, warnedThisWindow := warned } ∧
        (options.onExceed = .pause → paused = (tracker.paused || !tracker.within)) ∧
          (options.onExceed ≠ .pause → paused = tracker.paused) := by
  cases policy : options.onExceed with
  | pause =>
    obtain ⟨reason, pausing⟩ := enforce_of_pause options policy tracker phase
    cases checked.symm.trans pausing
    exact ⟨_, reason, _, rfl, fun _ => rfl, fun other => absurd rfl other⟩
  | log =>
    obtain ⟨warned, logging⟩ := enforce_of_log options policy tracker phase
    cases checked.symm.trans logging
    exact ⟨_, _, warned, rfl, nofun, fun _ => rfl⟩
  | throw =>
    rcases enforce_of_throw options policy tracker phase with ⟨-, same⟩ | ⟨-, _, same⟩
    · cases checked.symm.trans same
      exact ⟨_, _, _, rfl, nofun, fun _ => rfl⟩
    · cases checked.symm.trans same

theorem enforce_error (checked : tracker.enforce options phase = .error exceeded) :
    options.onExceed = .throw := by
  cases policy : options.onExceed with
  | pause =>
    obtain ⟨_, pausing⟩ := enforce_of_pause options policy tracker phase
    cases checked.symm.trans pausing
  | log =>
    obtain ⟨_, logging⟩ := enforce_of_log options policy tracker phase
    cases checked.symm.trans logging
  | throw => rfl

structure Tracks (account : Account) (tracker : BudgetTracker) : Prop where
  dated : account.Dated
  kept : ∃ seen, seen ≤ account.seen ∧ (options.onExceed ≠ .throw → seen = account.seen) ∧
    Tallies options account.spends seen tracker
  ceilings : tracker.ceilings = account.ceilings
  honest : tracker.Honest
  calm : options.onExceed ≠ .pause → tracker.paused = false

variable {account : Account} {tokens costUsd : Rat} {clock : RecordClock}

theorem Account.Timely.record (timely : account.Timely (.record phase tokens costUsd clock)) :
    account.seen ≤ clock.reset ∧ clock.reset ≤ clock.ledger ∧
      clock.ledger ≤ clock.snapshot := by
  simp only [Account.Timely, BudgetCall.instants, List.pairwise_cons, List.mem_cons,
    List.not_mem_nil, or_false, forall_eq_or_imp, forall_eq] at timely
  exact ⟨timely.1.1, timely.2.1.1, timely.2.2.1⟩

theorem RecordClock.reset_le_spentAt (ordered : clock.reset ≤ clock.ledger)
    (semantics : ResetSemantics) :
    clock.reset ≤ clock.spentAt semantics ∧ clock.spentAt semantics ≤ clock.ledger ∧
      (semantics ≠ .sliding24h → clock.spentAt semantics = clock.reset) := by
  cases semantics with
  | utc => exact ⟨le_rfl, ordered, fun _ => rfl⟩
  | hostLocal => exact ⟨le_rfl, ordered, fun _ => rfl⟩
  | sliding24h => exact ⟨ordered, le_rfl, fun calendar => absurd rfl calendar⟩

variable {call : BudgetCall}

theorem Account.Timely.le_seen (timely : account.Timely call) :
    account.seen ≤ (account.step options call).seen := by
  cases call with
  | precheck _ now => exact List.rel_of_pairwise_cons timely (List.mem_singleton_self now)
  | snapshot now => exact List.rel_of_pairwise_cons timely (List.mem_singleton_self now)
  | reconfigure => exact le_rfl
  | record =>
    obtain ⟨reset, ledger, snapshot⟩ := timely.record
    exact reset.trans (ledger.trans snapshot)

theorem Account.Dated.step {account : Account} (dated : account.Dated) {call : BudgetCall}
    (timely : account.Timely call) : (account.step options call).Dated := by
  have seen := timely.le_seen options
  have kept (none : call.spends options = []) : (account.step options call).Dated := by
    have spends : (account.step options call).spends = account.spends := by
      change account.spends ++ call.spends options = account.spends
      rw [none, List.append_nil]
    constructor
    · rw [spends]
      exact dated.sorted
    · rw [spends]
      exact fun spend member => (dated.spent spend member).trans seen
    · rw [spends]
      exact dated.positive
  cases call with
  | precheck => exact kept rfl
  | snapshot => exact kept rfl
  | reconfigure => exact kept rfl
  | record phase tokens costUsd clock =>
    obtain ⟨reset, ledger, snapshot⟩ := timely.record
    obtain ⟨after, before, -⟩ := clock.reset_le_spentAt ledger options.resetSemantics
    constructor
    · refine List.pairwise_append.mpr
        ⟨dated.sorted, List.pairwise_singleton _ _, fun spend member other there => ?_⟩
      rw [List.mem_singleton.mp there]
      exact ((dated.spent spend member).trans reset).trans after
    · refine List.forall_mem_append.mpr
        ⟨fun spend member => (dated.spent spend member).trans seen, ?_⟩
      exact List.forall_mem_singleton.mpr (before.trans snapshot)
    · refine List.forall_mem_append.mpr ⟨dated.positive, ?_⟩
      exact List.forall_mem_singleton.mpr ⟨le_max_left _ _, le_max_left _ _⟩

theorem record_cases (tracker : BudgetTracker) (phase : Phase) (tokens costUsd : Rat)
    (clock : RecordClock) :
    let charged := (tracker.maybeReset options clock.reset).charge options
      ⟨clock.spentAt options.resetSemantics, max 0 tokens, max 0 costUsd⟩
    let recorded := tracker.record options phase tokens costUsd clock
    (∃ exceeded, charged.enforce options phase = .error exceeded ∧
      recorded = (charged, .error exceeded)) ∨
    (∃ enforced, charged.enforce options phase = .ok enforced ∧
      recorded.1 = enforced.maybeReset options clock.snapshot ∧
      ∃ snapshot, recorded.2 = .ok snapshot) := by
  dsimp only
  rw [BudgetTracker.record]
  dsimp only
  cases checked : ((tracker.maybeReset options clock.reset).charge options
      ⟨clock.spentAt options.resetSemantics, max 0 tokens, max 0 costUsd⟩).enforce
        options phase with
  | error exceeded => exact Or.inl ⟨exceeded, rfl, rfl⟩
  | ok enforced => exact Or.inr ⟨enforced, rfl, rfl, _, rfl⟩

theorem charge_over (past : tracker.within = false)
    (positive : 0 ≤ spend.tokens ∧ 0 ≤ spend.cost) :
    (tracker.charge options spend).within = false := by
  rw [within_false_iff] at past ⊢
  exact past.imp (lt_of_lt_of_le · (le_add_of_nonneg_right positive.1))
    (lt_of_lt_of_le · (le_add_of_nonneg_right positive.2))

theorem maybeReset_tracks (tracks : Tracks options account tracker)
    (ordered : account.seen ≤ now) :
    Tracks options { account with seen := now } (tracker.maybeReset options now) := by
  obtain ⟨seen, before, -, kept⟩ := tracks.kept
  refine ⟨⟨tracks.dated.sorted, fun spend member => (tracks.dated.spent spend member).trans
    ordered, tracks.dated.positive⟩, ⟨now, le_rfl, fun _ => rfl, ?_⟩, ?_, ?_, ?_⟩
  · exact maybeReset_kept options kept (before.trans ordered) tracks.dated.sorted
  · exact (tracker.maybeReset_ceilings options now).trans tracks.ceilings
  · exact tracker.maybeReset_honest options tracks.honest now
  · exact fun pause => tracker.maybeReset_paused options (tracks.calm pause) now

/-- The counters with an amount on them, before the ceilings are looked at. -/
theorem charge_tracks (tracks : Tracks options account tracker)
    (timely : account.Timely (.record phase tokens costUsd clock)) :
    let spend : Spend := ⟨clock.spentAt options.resetSemantics, max 0 tokens, max 0 costUsd⟩
    let charged := (tracker.maybeReset options clock.reset).charge options spend
    Tallies options (account.spends ++ [spend]) clock.reset charged ∧
      charged.ceilings = account.ceilings ∧ charged.Honest ∧
        (options.onExceed ≠ .pause → charged.paused = false) := by
  obtain ⟨reset, ledger, -⟩ := timely.record
  obtain ⟨after, -, calendar⟩ := clock.reset_le_spentAt ledger options.resetSemantics
  have rolled := maybeReset_tracks options tracks reset
  obtain ⟨seen, before, kept⟩ := tracks.kept
  refine ⟨?_, rolled.ceilings, ?_, rolled.calm⟩
  · exact charge_kept options (maybeReset_kept options kept.2 (before.trans reset)
      tracks.dated.sorted) after calendar
  · exact fun paused => charge_over options (rolled.honest paused)
      ⟨le_max_left _ _, le_max_left _ _⟩

theorem reconfigure_tracks (tracks : Tracks options account tracker) (ceilings : Ceilings) :
    Tracks options (account.step options (.reconfigure ceilings))
      (tracker.reconfigure ceilings) := by
  have dated : (account.step options (.reconfigure ceilings)).Dated :=
    tracks.dated.step options (List.pairwise_singleton _ _)
  have spends : (account.step options (.reconfigure ceilings)).spends = account.spends :=
    List.append_nil _
  obtain ⟨reason, relaxed⟩ := BudgetTracker.relax_eq { tracker with ceilings }
  obtain ⟨seen, before, same, kept⟩ := tracks.kept
  rw [BudgetTracker.reconfigure, relaxed]
  refine ⟨dated, ⟨seen, before, same, ?_⟩, rfl, ?_, ?_⟩
  · rw [spends]
    exact ⟨kept.usage, kept.sliding, kept.calendar⟩
  · exact fun paused => (Bool.not_eq_true' _).mp ((Bool.and_eq_true _ _).mp paused).2
  · intro pause
    exact Bool.and_eq_false_imp.mpr fun paused =>
      absurd ((tracks.calm pause).symm.trans paused) (by decide)

theorem record_tracks (tracks : Tracks options account tracker)
    (timely : account.Timely (.record phase tokens costUsd clock)) :
    Tracks options (account.step options (.record phase tokens costUsd clock))
      (tracker.record options phase tokens costUsd clock).1 := by
  have dated := tracks.dated.step options timely
  obtain ⟨reset, ledger, snapshot⟩ := timely.record
  obtain ⟨kept, ceilings, honest, calm⟩ := charge_tracks options tracks timely
  rcases record_cases options tracker phase tokens costUsd clock with
    ⟨_, thrown, same⟩ | ⟨_, checked, same, -⟩
  · rw [same]
    refine ⟨dated, ⟨clock.reset, ledger.trans snapshot, fun policy => ?_, kept⟩, ceilings,
      honest, calm⟩
    exact absurd (enforce_error options thrown) policy
  · rw [same]
    obtain ⟨paused, reason, warned, rfl, pausing, keeping⟩ := enforce_ok options checked
    refine ⟨dated, ⟨clock.snapshot, le_rfl, fun _ => rfl, ?_⟩, ?_, ?_, ?_⟩
    · exact maybeReset_kept options ⟨kept.usage, kept.sliding, kept.calendar⟩
        (ledger.trans snapshot) dated.sorted
    · exact (BudgetTracker.maybeReset_ceilings options _ _).trans ceilings
    · refine BudgetTracker.maybeReset_honest options (fun isPaused => ?_) _
      by_cases policy : options.onExceed = .pause
      · rcases (Bool.or_eq_true _ _).mp ((pausing policy).symm.trans isPaused) with before | past
        · exact honest before
        · exact (Bool.not_eq_true' _).mp past
      · exact honest ((keeping policy).symm.trans isPaused)
    · intro policy
      exact BudgetTracker.maybeReset_paused options
        ((keeping policy).trans (calm policy)) _

theorem step_tracks (tracks : Tracks options account tracker) (timely : account.Timely call) :
    Tracks options (account.step options call) (call.step options tracker) := by
  have looked {now : Int} (ordered : account.seen ≤ now) :
      Tracks options ⟨account.spends ++ [], now, account.ceilings⟩
        (tracker.maybeReset options now) := by
    rw [List.append_nil]
    exact maybeReset_tracks options tracks ordered
  cases call with
  | precheck => exact looked (timely.le_seen options)
  | snapshot => exact looked (timely.le_seen options)
  | reconfigure ceilings => exact reconfigure_tracks options tracks ceilings
  | record => exact record_tracks options tracks timely

theorem opened_tracks (ceilings : Ceilings) (now : Int) :
    Tracks options { seen := now, ceilings } (.opened options ceilings now) where
  dated := ⟨List.Pairwise.nil, nofun, nofun⟩
  kept := ⟨now, le_rfl, fun _ => rfl, rfl, fun _ => rfl,
    fun _ => ⟨rfl, nofun⟩⟩
  ceilings := rfl
  honest := nofun
  calm := fun _ => rfl

theorem BudgetTracker.Watchful.of_le {old new : BudgetTracker} (watchful : old.Watchful)
    (tokens : new.tokens ≤ old.tokens) (cost : new.cost ≤ old.cost)
    (ceilings : new.ceilings = old.ceilings)
    (calm : new.paused = false → old.paused = false ∨ new.within = true) :
    new.Watchful := by
  intro paused
  rcases calm paused with before | within
  · rcases watchful before with within | ⟨noTokens, noCost⟩
    · rw [within_iff, Usage.Within] at within ⊢
      rw [ceilings]
      exact Or.inl ⟨tokens.trans within.1, cost.trans within.2⟩
    · exact Or.inr ⟨tokens.trans noTokens, cost.trans noCost⟩
  · exact Or.inl within

theorem maybeReset_watchful (kept : Tallies options spends seen tracker)
    (ordered : seen ≤ now)
    (sorted : spends.Pairwise fun first second => first.spentAt ≤ second.spentAt)
    (positive : ∀ spend ∈ spends, 0 ≤ spend.tokens ∧ 0 ≤ spend.cost)
    (watchful : tracker.Watchful) : (tracker.maybeReset options now).Watchful := by
  by_cases sliding : options.resetSemantics = .sliding24h
  · obtain ⟨tokens, cost⟩ := usage_le options kept ordered positive
    have usage := (maybeReset_kept options kept ordered sorted).usage
    rw [usage] at tokens cost
    refine watchful.of_le tokens cost (tracker.maybeReset_ceilings options now) ?_
    obtain ⟨_, _, slid⟩ := tracker.slide_eq now
    rw [BudgetTracker.maybeReset_sliding options sliding, slid]
    exact fun calm => (Bool.and_eq_false_iff.mp calm).imp id (Bool.not_eq_false' _).mp
  · rw [BudgetTracker.maybeReset_calendar options sliding]
    by_cases same : options.resetSemantics.bucketStart now = tracker.bucketStart
    · rw [BudgetTracker.rollOver_of_same options same]
      exact watchful
    · rw [BudgetTracker.rollOver_of_ne options same]
      exact fun _ => Or.inr ⟨le_rfl, le_rfl⟩

theorem step_watchful (tracks : Tracks options account tracker)
    (timely : account.Timely call) (pause : options.onExceed = .pause)
    (careful : account.Careful options call) (watchful : tracker.Watchful) :
    (call.step options tracker).Watchful := by
  have policy : options.onExceed ≠ .throw := by
    rw [pause]
    nofun
  obtain ⟨seen, _, same, kept⟩ := tracks.kept
  cases same policy
  have looked {now : Int} (ordered : account.seen ≤ now) :
      (tracker.maybeReset options now).Watchful :=
    maybeReset_watchful options kept ordered tracks.dated.sorted tracks.dated.positive watchful
  cases call with
  | precheck => exact looked (timely.le_seen options)
  | snapshot => exact looked (timely.le_seen options)
  | reconfigure ceilings =>
    obtain ⟨reason, relaxed⟩ := BudgetTracker.relax_eq { tracker with ceilings }
    change (BudgetTracker.relax _).Watchful
    rw [relaxed]
    intro calm
    rcases Bool.and_eq_false_iff.mp calm with before | within
    · rcases watchful before with within | none
      · refine Or.inl ((BudgetTracker.within_iff _).mpr ?_)
        rw [Account.Careful, Account.usage, kept.usage, ← tracks.ceilings] at careful
        exact careful ((BudgetTracker.within_iff _).mp within)
      · exact Or.inr none
    · exact Or.inl ((Bool.not_eq_false' _).mp within)
  | record phase tokens costUsd clock =>
    have dated := tracks.dated.step options timely
    obtain ⟨reset, ledger, snapshot⟩ := timely.record
    obtain ⟨charged, -⟩ := charge_tracks options tracks timely
    change (tracker.record options phase tokens costUsd clock).1.Watchful
    rcases record_cases options tracker phase tokens costUsd clock with
      ⟨_, thrown, -⟩ | ⟨_, checked, recorded, -⟩
    · exact absurd (enforce_error options thrown) policy
    · rw [recorded]
      obtain ⟨paused, reason, warned, rfl, pausing, -⟩ := enforce_ok options checked
      refine maybeReset_watchful options
        ⟨charged.usage, charged.sliding, charged.calendar⟩ (ledger.trans snapshot)
        dated.sorted dated.positive (fun calm => Or.inl ?_)
      have within := (Bool.or_eq_false_iff.mp ((pausing pause).symm.trans calm)).2
      exact (Bool.not_eq_false' _).mp within

theorem run_tracks (tracks : Tracks options account tracker)
    (timely : account.Along options (fun account call => account.Timely call) calls) :
    Tracks options (account.run options calls) (tracker.run options calls) := by
  induction calls generalizing account tracker with
  | nil => exact tracks
  | cons call calls ih => exact ih (step_tracks options tracks timely.1) timely.2

theorem run_watchful (tracks : Tracks options account tracker)
    (timely : account.Along options (fun account call => account.Timely call) calls)
    (pause : options.onExceed = .pause)
    (careful : account.Along options (Account.Careful options) calls)
    (watchful : tracker.Watchful) : (tracker.run options calls).Watchful := by
  induction calls generalizing account tracker with
  | nil => exact watchful
  | cons call calls ih =>
    exact ih (step_tracks options tracks timely.1) timely.2 careful.2
      (step_watchful options tracks timely.1 pause careful.1 watchful)

theorem precheck_allowed (tracker : BudgetTracker) (phase : Phase) (now : Int) :
    (tracker.precheck options phase now).2.allowed = true ↔
      phase = .light ∨ ((tracker.maybeReset options now).paused = false ∧
        tracker.ceilings.Positive) := by
  rw [← tracker.maybeReset_ceilings options now, BudgetTracker.precheck, Ceilings.Positive]
  dsimp only
  by_cases light : phase = .light
  · rw [if_pos light]
    exact iff_of_true rfl (Or.inl light)
  · rw [if_neg light]
    cases paused : (tracker.maybeReset options now).paused with
    | true => exact iff_of_false Bool.false_ne_true (by simp [light])
    | false =>
      rw [if_neg Bool.false_ne_true, or_iff_right light, and_iff_right rfl]
      split
      · rename_i tokens
        exact iff_of_false Bool.false_ne_true fun positive => tokens.not_gt positive.1
      · rename_i tokens
        rw [and_iff_right (not_le.mp tokens)]
        split
        · rename_i cost
          exact iff_of_false Bool.false_ne_true fun positive => cost.not_gt positive
        · rename_i cost
          exact iff_of_true rfl (not_le.mp cost)

section Tracked

variable {options} {account : Account} {tracker : BudgetTracker}

variable {now : Int}

theorem Tracks.usage_now (tracks : Tracks options account tracker)
    (ordered : account.seen ≤ now) :
    options.resetSemantics.usage account.spends now =
      ⟨(tracker.maybeReset options now).tokens, (tracker.maybeReset options now).cost⟩ := by
  obtain ⟨seen, before, -, kept⟩ := tracks.kept
  exact (maybeReset_kept options kept (before.trans ordered) tracks.dated.sorted).usage

theorem Tracks.within_now (tracks : Tracks options account tracker)
    (ordered : account.seen ≤ now) :
    (tracker.maybeReset options now).within = true ↔
      (options.resetSemantics.usage account.spends now).Within account.ceilings := by
  rw [BudgetTracker.within_iff, tracks.usage_now ordered,
    (maybeReset_tracks options tracks ordered).ceilings]

theorem Tracks.allowed (tracks : Tracks options account tracker) (phase : Phase) (now : Int) :
    (tracker.precheck options phase now).2.allowed = true ↔ phase = .light ∨
        ((tracker.maybeReset options now).paused = false ∧ account.ceilings.Positive) := by
  rw [precheck_allowed, tracks.ceilings]

theorem Tracks.admits (tracks : Tracks options account tracker)
    (ordered : account.seen ≤ now)
    (within : (options.resetSemantics.usage account.spends now).Within account.ceilings) :
    (tracker.maybeReset options now).paused = false := by
  have honest := (maybeReset_tracks options tracks ordered).honest
  rw [← tracks.within_now ordered] at within
  cases paused : (tracker.maybeReset options now).paused with
  | false => rfl
  | true => exact absurd ((honest paused).symm.trans within) Bool.false_ne_true

theorem Tracks.refuses (tracks : Tracks options account tracker)
    (ordered : account.seen ≤ now) (watchful : tracker.Watchful)
    (positive : account.ceilings.Positive)
    (paused : (tracker.maybeReset options now).paused = false) :
    (options.resetSemantics.usage account.spends now).Within account.ceilings := by
  obtain ⟨seen, before, -, kept⟩ := tracks.kept
  rcases maybeReset_watchful options kept (before.trans ordered) tracks.dated.sorted
    tracks.dated.positive watchful paused with within | ⟨tokens, cost⟩
  · exact (tracks.within_now ordered).mp within
  · rw [tracks.usage_now ordered]
    exact ⟨tokens.trans positive.1.le, cost.trans positive.2.le⟩

theorem Tracks.record_throws (tracks : Tracks options account tracker)
    (timely : account.Timely (.record phase tokens costUsd clock))
    (throw : options.onExceed = .throw) :
    (∃ exceeded, (tracker.record options phase tokens costUsd clock).2 = .error exceeded) ↔
      ¬Usage.Within
        ⟨(options.resetSemantics.usage account.spends clock.reset).tokens + max 0 tokens,
          (options.resetSemantics.usage account.spends clock.reset).cost + max 0 costUsd⟩
        account.ceilings := by
  obtain ⟨-, ceilings, -, -⟩ := charge_tracks options tracks timely
  have within := BudgetTracker.within_iff ((tracker.maybeReset options clock.reset).charge
    options ⟨clock.spentAt options.resetSemantics, max 0 tokens, max 0 costUsd⟩)
  rw [ceilings] at within
  rw [tracks.usage_now timely.record.1]
  refine Iff.trans ?_ (not_congr within)
  rw [Bool.not_eq_true]
  have enforced := enforce_of_throw options throw ((tracker.maybeReset options
    clock.reset).charge options
      ⟨clock.spentAt options.resetSemantics, max 0 tokens, max 0 costUsd⟩) phase
  rcases record_cases options tracker phase tokens costUsd clock with
    ⟨exceeded, thrown, same⟩ | ⟨_, checked, -, snapshot, same⟩
  · refine iff_of_true ⟨exceeded, congrArg Prod.snd same⟩ ?_
    rcases enforced with ⟨-, passed⟩ | ⟨past, -⟩
    · cases thrown.symm.trans passed
    · exact past
  · refine iff_of_false ?_ ?_
    · rintro ⟨_, thrown⟩
      cases same.symm.trans thrown
    · intro past
      rcases enforced with ⟨inside, -⟩ | ⟨-, _, thrown⟩
      · cases inside.symm.trans past
      · cases checked.symm.trans thrown

end Tracked

/-- In a run no reconfiguration of which puts a ceiling below what was spent, a check refuses
exactly what the usage inside the window, as it is now, is past; a refusal is never for
less. Without a pause the ceilings are the business of `record`, which throws past them. -/
theorem budget_enforced (ceilings : Ceilings) (openedAt : Int) (calls : List BudgetCall)
    (timely : Account.Along options (fun account call => account.Timely call)
      { seen := openedAt, ceilings } calls) :
    let account := Account.run options { seen := openedAt, ceilings } calls
    let tracker := (BudgetTracker.opened options ceilings openedAt).run options calls
    let usage := options.resetSemantics.usage account.spends
    (∀ phase now, account.seen ≤ now →
      let (checked, check) := tracker.precheck options phase now
      usage now = ⟨checked.tokens, checked.cost⟩ ∧
        (phase = .light → check.allowed = true) ∧
        (phase ≠ .light → options.onExceed ≠ .pause →
          (check.allowed = true ↔ account.ceilings.Positive)) ∧
        (phase ≠ .light → options.onExceed = .pause →
          (check.allowed = true → account.ceilings.Positive) ∧
          (account.ceilings.Positive → (usage now).Within account.ceilings →
            check.allowed = true) ∧
          (Account.Along options (Account.Careful options) { seen := openedAt, ceilings } calls →
            (check.allowed = true ↔
              account.ceilings.Positive ∧ (usage now).Within account.ceilings)))) ∧
    (∀ phase tokens costUsd clock, account.Timely (.record phase tokens costUsd clock) →
      options.onExceed = .throw →
      ((∃ exceeded, (tracker.record options phase tokens costUsd clock).2 = .error exceeded) ↔
        ¬Usage.Within ⟨(usage clock.reset).tokens + max 0 tokens,
          (usage clock.reset).cost + max 0 costUsd⟩ account.ceilings)) := by
  dsimp only
  have opened := opened_tracks options ceilings openedAt
  have tracks := run_tracks options opened timely
  refine ⟨fun phase now ordered => ⟨tracks.usage_now ordered,
    fun light => (tracks.allowed phase now).mpr (Or.inl light), fun heavy policy => ?_,
    fun heavy policy => ?_⟩, fun phase tokens costUsd clock next policy =>
      tracks.record_throws next policy⟩
  · have calm := (maybeReset_tracks options tracks ordered).calm policy
    rw [tracks.allowed, or_iff_right heavy, and_iff_right calm]
  · rw [tracks.allowed, or_iff_right heavy]
    refine ⟨And.right, fun positive within => ⟨tracks.admits ordered within, positive⟩,
      fun careful => ?_⟩
    have watchful := run_watchful options opened timely policy careful
      fun _ => Or.inr ⟨le_rfl, le_rfl⟩
    constructor
    · rintro ⟨paused, positive⟩
      exact ⟨positive, tracks.refuses ordered watchful positive paused⟩
    · rintro ⟨positive, within⟩
      exact ⟨tracks.admits ordered within, positive⟩

end Keeping

def daily (onExceed : OnBudgetExceed) : BudgetOptions := ⟨onExceed, .utc⟩

def breach : List BudgetCall := [.record .standard 200 0 ⟨0, 0, 0⟩]

theorem breach_usage (onExceed : OnBudgetExceed) (now : Int)
    (today : now / dayMs = 0) :
    (daily onExceed).resetSemantics.usage (breach.flatMap (BudgetCall.spends (daily onExceed)))
      now = ⟨200, 0⟩ := by
  have inside : ResetSemantics.utc.inside 0 now = true := by
    refine (@ResetSemantics.inside_iff .utc nofun 0 now).mpr ?_
    rw [ResetSemantics.bucketStart, ResetSemantics.bucketStart, today]
    rfl
  have spends : breach.flatMap (BudgetCall.spends (daily onExceed)) = [⟨0, 200, 0⟩] := by
    norm_num [breach, BudgetCall.spends, daily, RecordClock.spentAt]
  rw [spends, ResetSemantics.usage, ResetSemantics.window, daily]
  simp [inside, Usage.total]

/-- The ceiling of 100 is passed and then raised to 1000. -/
theorem raised_admits :
    (((BudgetTracker.opened (daily .pause) ⟨100, 1⟩ 0).run (daily .pause)
      (breach ++ [.reconfigure ⟨1000, 1⟩])).precheck (daily .pause) .standard 1).2.allowed =
        true := by
  have usage := breach_usage .pause
  refine ((((budget_enforced (daily .pause) ⟨100, 1⟩ 0 (breach ++ [.reconfigure ⟨1000, 1⟩])
    ?_).1 .standard 1 (by decide)).2.2.2 (by decide) rfl).2.2 ?_).mpr ⟨?_, ?_⟩
  · refine ⟨?_, ?_, trivial⟩
    · change Account.Timely _ _
      decide
    · exact List.pairwise_singleton _ _
  · refine ⟨trivial, ?_, trivial⟩
    intro _
    change ((daily .pause).resetSemantics.usage
      (breach.flatMap (BudgetCall.spends (daily .pause))) 0).Within _
    rw [usage 0 (by decide)]
    constructor <;> norm_num
  · constructor
    · change (0 : Rat) < 1000
      norm_num
    · change (0 : Rat) < 1
      norm_num
  · change ((daily .pause).resetSemantics.usage
      (breach.flatMap (BudgetCall.spends (daily .pause))) 1).Within ⟨1000, 1⟩
    rw [usage 1 (by decide)]
    constructor <;> norm_num

/-- Under `log` a breached ceiling admits further work, as it does for a light phase. -/
theorem breach_admits :
    let checked (onExceed : OnBudgetExceed) (phase : Phase) :=
      (((BudgetTracker.opened (daily onExceed) ⟨100, 1⟩ 0).run (daily onExceed)
        breach).precheck (daily onExceed) phase 1).2.allowed
    let account (onExceed : OnBudgetExceed) :=
      Account.run (daily onExceed) { seen := 0, ceilings := ⟨100, 1⟩ } breach
    (checked .log .standard = true ∧ checked .pause .light = true) ∧
      ∀ onExceed, ¬((daily onExceed).resetSemantics.usage (account onExceed).spends 1).Within
        (account onExceed).ceilings := by
  intro checked account
  have timely (onExceed : OnBudgetExceed) : Account.Along (daily onExceed)
      (fun account call => account.Timely call) { seen := 0, ceilings := ⟨100, 1⟩ } breach :=
    ⟨show Account.Timely _ _ by decide, trivial⟩
  have tracks (onExceed : OnBudgetExceed) :=
    run_tracks _ (opened_tracks (daily onExceed) ⟨100, 1⟩ 0) (timely onExceed)
  refine ⟨⟨?_, ?_⟩, fun onExceed within => ?_⟩
  · refine ((tracks .log).allowed .standard 1).mpr (Or.inr ⟨?_, ?_⟩)
    · exact (maybeReset_tracks _ (tracks .log) (show (0 : Int) ≤ 1 by decide)).calm nofun
    · constructor
      · change (0 : Rat) < 100
        norm_num
      · change (0 : Rat) < 1
        norm_num
  · exact ((tracks .pause).allowed .light 1).mpr (Or.inl rfl)
  · change ((daily onExceed).resetSemantics.usage
      (breach.flatMap (BudgetCall.spends (daily onExceed))) 1).Within ⟨100, 1⟩ at within
    rw [breach_usage onExceed 1 (by decide)] at within
    exact absurd within.1 (by norm_num)

end Graphorin.Memory
