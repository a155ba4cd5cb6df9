import Graphorin.Lib.TokenBucket
import Mathlib.Algebra.Order.Field.Rat
import Mathlib.Data.Rat.Floor
import Mathlib.Tactic.NormNum

namespace Graphorin.Provider.RateLimit

open Lib

/-! `withRateLimit`: two buckets, one of requests and one of model tokens, and a queue of
waiters that one drain loop serves. Times are in milliseconds. -/

inductive Mode
  | throw
  | queue
  deriving DecidableEq

structure WithRateLimitOptions where
  requestsPerMinute : Rat
  burst : Option Rat := none
  tokensPerMinute : Option Rat := none
  mode : Mode := .throw

inductive RangeError
  | requestsPerMinute
  | tokensPerMinute
  deriving DecidableEq

structure Limits where
  requestsPerMinute : Rat
  burst : Rat
  tpm : Option Rat
  mode : Mode
  requests_pos : 0 < requestsPerMinute
  one_le_burst : 1 ≤ burst
  tpm_pos : ∀ budget ∈ tpm, 0 < budget

def factory (opts : WithRateLimitOptions) : Except RangeError Limits :=
  if requests : 0 < opts.requestsPerMinute then
    if tokens : ∀ budget ∈ opts.tokensPerMinute, 0 < budget then
      .ok {
        requestsPerMinute := opts.requestsPerMinute
        burst := max (opts.burst.getD ⌈opts.requestsPerMinute / 4⌉) 1
        tpm := opts.tokensPerMinute
        mode := opts.mode
        requests_pos := requests
        one_le_burst := le_max_right _ _
        tpm_pos := tokens }
    else .error .tokensPerMinute
  else .error .requestsPerMinute

structure Waiter where
  call : Nat
  signal : Bool
  cancelled : Bool
  weight : Rat

structure BucketState where
  tokens : Rat
  lastRefill : Rat
  tpmTokens : Rat
  tpmLastRefill : Rat
  queue : List Waiter
  draining : Bool

namespace Limits

variable (limits : Limits)

def refillPerMs : Rat := limits.requestsPerMinute / 60000

def tpmRefillPerMs : Rat := limits.tpm.elim 0 (· / 60000)

/-- The clock is read twice. -/
def bucketFor (first second : Rat) : BucketState where
  tokens := limits.burst
  lastRefill := first
  tpmTokens := limits.tpm.getD 0
  tpmLastRefill := second
  queue := []
  draining := false

def refill (bucket : BucketState) (ts : Rat) : BucketState :=
  let bucket := { bucket with
    tokens := min limits.burst
      (bucket.tokens + (ts - bucket.lastRefill) * limits.refillPerMs)
    lastRefill := ts }
  match limits.tpm with
  | none => bucket
  | some tpm => { bucket with
      tpmTokens := min tpm
        (bucket.tpmTokens + (ts - bucket.tpmLastRefill) * limits.tpmRefillPerMs)
      tpmLastRefill := ts }

/-- `raw` is what the estimator answered, if that is a finite number. -/
def weightFor (raw : Option Rat) : Rat :=
  match limits.tpm with
  | none => 0
  | some tpm => min (max 0 (raw.getD tpm)) tpm

def available (bucket : BucketState) (weight : Rat) : Prop :=
  1 ≤ bucket.tokens ∧ (limits.tpm = none ∨ weight ≤ bucket.tpmTokens)

instance (bucket : BucketState) (weight : Rat) :
    Decidable (limits.available bucket weight) := inferInstanceAs (Decidable (_ ∧ _))

def waitMsFor (bucket : BucketState) (weight : Rat) : Int :=
  let reqWait := if 1 ≤ bucket.tokens then 0 else (1 - bucket.tokens) / limits.refillPerMs
  let tpmWait :=
    if limits.tpm = none ∨ weight ≤ bucket.tpmTokens then 0
    else (weight - bucket.tpmTokens) / limits.tpmRefillPerMs
  ⌈max reqWait tpmWait⌉

def take (bucket : BucketState) (weight : Rat) : BucketState :=
  let bucket := { bucket with tokens := bucket.tokens - 1 }
  match limits.tpm with
  | none => bucket
  | some _ => { bucket with tpmTokens := bucket.tpmTokens - weight }

end Limits

structure Grant where
  call : Nat
  time : Rat
  weight : Rat

inductive Loop
  | turning
  | sleeping (head : Nat) (since : Rat) (ms : Int)

structure Limiter where
  bucket : BucketState
  clock : Rat
  loop : Option Loop := none
  arrived : Nat := 0
  grants : List Grant := []
  aborted : List Nat := []
  refused : List (Nat × Int) := []

namespace Limiter

def start (limits : Limits) (first second : Rat) : Limiter where
  bucket := limits.bucketFor first second
  clock := second

def grant (limiter : Limiter) (limits : Limits) (bucket : BucketState) (call : Nat)
    (weight : Rat) : Limiter :=
  { limiter with
    bucket := limits.take bucket weight
    grants := limiter.grants ++ [⟨call, bucket.lastRefill, weight⟩] }

def drain (limiter : Limiter) : Limiter :=
  if limiter.bucket.draining then limiter
  else { limiter with
    bucket := { limiter.bucket with draining := true }
    loop := some .turning }

/-- `signal` says, when there is one, whether it was aborted already. -/
def acquire (limiter : Limiter) (limits : Limits) (signal : Option Bool)
    (raw : Option Rat) (ts : Rat) : Limiter :=
  let call := limiter.arrived
  let weight := limits.weightFor raw
  let limiter := { limiter with arrived := limiter.arrived + 1, clock := ts }
  if signal = some true then { limiter with aborted := limiter.aborted ++ [call] }
  else
    let bucket := limits.refill limiter.bucket ts
    if limits.available bucket weight ∧ bucket.queue = [] then
      limiter.grant limits bucket call weight
    else
      match limits.mode with
      | .throw => { limiter with
          bucket
          refused := limiter.refused ++ [(call, limits.waitMsFor bucket weight)] }
      | .queue =>
        let waiter := { call, signal := signal.isSome, cancelled := false, weight }
        drain { limiter with
          bucket := { bucket with queue := bucket.queue ++ [waiter] } }

def cancel (call : Nat) (waiter : Waiter) : Waiter :=
  if waiter.call = call then { waiter with cancelled := true } else waiter

def abort (limiter : Limiter) (call : Nat) : Limiter :=
  if limiter.bucket.queue.any fun waiter =>
      waiter.call = call && waiter.signal && !waiter.cancelled then
    { limiter with
      bucket := { limiter.bucket with queue := limiter.bucket.queue.map (cancel call) }
      aborted := limiter.aborted ++ [call] }
  else limiter

/-- One turn of the loop in `drain`. -/
def turn (limiter : Limiter) (limits : Limits) (ts : Rat) : Limiter :=
  match limiter.bucket.queue with
  | [] => { limiter with bucket := { limiter.bucket with draining := false }, loop := none }
  | head :: rest =>
    if head.cancelled then
      { limiter with bucket := { limiter.bucket with queue := rest } }
    else
      let bucket := limits.refill limiter.bucket ts
      let limiter := { limiter with clock := ts }
      if limits.available bucket head.weight then
        limiter.grant limits { bucket with queue := rest } head.call head.weight
      else
        { limiter with
          bucket
          loop := some (.sleeping head.call ts (limits.waitMsFor bucket head.weight)) }

inductive Action
  | acquire (signal : Option Bool) (raw : Option Rat) (ts : Rat)
  | abort (call : Nat)
  | wake
  | turn (ts : Rat)

def idle (limiter : Limiter) : Prop := ∀ loop ∈ limiter.loop, loop ≠ .turning

inductive Step (limits : Limits) : Limiter → Action → Limiter → Prop
  | acquire {limiter : Limiter} {signal : Option Bool} {raw : Option Rat} {ts : Rat} :
      limiter.idle → limiter.clock ≤ ts →
        Step limits limiter (.acquire signal raw ts) (limiter.acquire limits signal raw ts)
  | abort {limiter : Limiter} {call : Nat} :
      limiter.idle → Step limits limiter (.abort call) (limiter.abort call)
  | wake {limiter : Limiter} {head : Nat} {since : Rat} {ms : Int} :
      limiter.loop = some (.sleeping head since ms) →
        Step limits limiter .wake { limiter with loop := some .turning }
  | turn {limiter : Limiter} {ts : Rat} :
      limiter.loop = some .turning → limiter.clock ≤ ts →
        Step limits limiter (.turn ts) (limiter.turn limits ts)

inductive Reachable (limits : Limits) (first second : Rat) : Limiter → Prop
  | start : Reachable limits first second (start limits first second)
  | step {limiter next : Limiter} {action : Action} :
      Reachable limits first second limiter → Step limits limiter action next →
        Reachable limits first second next

end Limiter

def BucketState.requests (bucket : BucketState) : TokenBucket Rat :=
  ⟨bucket.tokens, bucket.lastRefill⟩

def BucketState.budget (bucket : BucketState) : TokenBucket Rat :=
  ⟨bucket.tpmTokens, bucket.tpmLastRefill⟩

namespace Limits

variable (limits : Limits) (bucket : BucketState)

theorem refillPerMs_pos : 0 < limits.refillPerMs :=
  div_pos limits.requests_pos (by norm_num)

@[simp] theorem refill_queue (ts : Rat) :
    (limits.refill bucket ts).queue = bucket.queue := by
  unfold refill
  split <;> rfl

@[simp] theorem refill_draining (ts : Rat) :
    (limits.refill bucket ts).draining = bucket.draining := by
  unfold refill
  split <;> rfl

@[simp] theorem refill_lastRefill (ts : Rat) :
    (limits.refill bucket ts).lastRefill = ts := by
  unfold refill
  split <;> rfl

theorem refill_requests (ts : Rat) : (limits.refill bucket ts).requests =
    bucket.requests.refill limits.burst limits.refillPerMs ts := by
  unfold refill
  split <;> rfl

variable {tpm : Rat}

theorem refill_budget (set : limits.tpm = some tpm) (ts : Rat) :
    (limits.refill bucket ts).budget = bucket.budget.refill tpm (tpm / 60000) ts := by
  unfold refill tpmRefillPerMs
  rw [set]
  rfl

@[simp] theorem take_queue (weight : Rat) :
    (limits.take bucket weight).queue = bucket.queue := by
  unfold take
  split <;> rfl

@[simp] theorem take_draining (weight : Rat) :
    (limits.take bucket weight).draining = bucket.draining := by
  unfold take
  split <;> rfl

theorem take_requests (weight : Rat) :
    (limits.take bucket weight).requests = bucket.requests.take 1 := by
  unfold take
  split <;> rfl

theorem take_budget (set : limits.tpm = some tpm) (weight : Rat) :
    (limits.take bucket weight).budget = bucket.budget.take weight := by
  unfold take
  rw [set]
  rfl

theorem take_with_queue (queue : List Waiter) (weight : Rat) :
    (limits.take { bucket with queue } weight).requests =
        (limits.take bucket weight).requests ∧
      (limits.take { bucket with queue } weight).budget =
        (limits.take bucket weight).budget := by
  unfold take
  cases limits.tpm <;> exact ⟨rfl, rfl⟩

def Weighed (weight : Rat) : Prop := ∀ tpm ∈ limits.tpm, 0 ≤ weight ∧ weight ≤ tpm

theorem weightFor_weighed (raw : Option Rat) : limits.Weighed (limits.weightFor raw) := by
  intro tpm set
  have positive := limits.tpm_pos tpm set
  rw [weightFor, Option.mem_def.mp set]
  exact ⟨le_min (le_max_left _ _) positive.le, min_le_right _ _⟩

theorem available_iff (weight : Rat) : limits.available bucket weight ↔
    1 ≤ bucket.requests.tokens ∧ ∀ tpm ∈ limits.tpm, weight ≤ bucket.budget.tokens := by
  refine and_congr_right fun _ => ?_
  cases set : limits.tpm with
  | none => simp
  | some => simp [BucketState.budget]

variable {weight : Rat}

theorem available_refill_refill (order : now ≤ later) :
    limits.available (limits.refill (limits.refill bucket now) later) weight ↔
      limits.available (limits.refill bucket later) weight := by
  rw [available_iff, available_iff]
  refine and_congr ?_ (forall₂_congr fun tpm set => ?_)
  · rw [refill_requests, refill_requests, refill_requests,
      TokenBucket.refill_refill limits.refillPerMs_pos.le order]
  · have positive := div_pos (limits.tpm_pos tpm set) (by norm_num : (0 : Rat) < 60000)
    rw [limits.refill_budget _ set, limits.refill_budget _ set, limits.refill_budget _ set,
      TokenBucket.refill_refill positive.le order]

theorem waitMsFor_pos (short : ¬ limits.available bucket weight) :
    0 < limits.waitMsFor bucket weight := by
  refine Int.ceil_pos.mpr (lt_max_iff.mpr ?_)
  rcases not_and_or.mp short with few | heavy
  · left
    rw [if_neg few]
    exact div_pos (by linarith [not_le.mp few]) limits.refillPerMs_pos
  · right
    rw [if_neg heavy]
    obtain ⟨limited, more⟩ := not_or.mp heavy
    obtain ⟨tpm, set⟩ := Option.ne_none_iff_exists'.mp limited
    refine div_pos (by linarith [not_le.mp more]) ?_
    rw [tpmRefillPerMs, set]
    exact div_pos (limits.tpm_pos tpm set) (by norm_num)

/-- A wait is long enough for what it was computed for. -/
theorem available_after_wait (weighed : limits.Weighed weight)
    (passed : ts + limits.waitMsFor (limits.refill bucket ts) weight ≤ later) :
    limits.available (limits.refill (limits.refill bucket ts) later) weight := by
  have waited := Int.le_ceil (max
    (if 1 ≤ (limits.refill bucket ts).tokens then 0
      else (1 - (limits.refill bucket ts).tokens) / limits.refillPerMs)
    (if limits.tpm = none ∨ weight ≤ (limits.refill bucket ts).tpmTokens then 0
      else (weight - (limits.refill bucket ts).tpmTokens) / limits.tpmRefillPerMs))
  have flowed := waited.trans (le_sub_iff_add_le'.mpr passed)
  obtain ⟨requests, budget⟩ := max_le_iff.mp flowed
  rw [available_iff]
  constructor
  · rw [refill_requests]
    refine TokenBucket.le_refill_tokens limits.one_le_burst ?_
    show 1 - (limits.refill bucket ts).tokens ≤ _
    rw [show (limits.refill bucket ts).requests.lastRefill = ts from
      limits.refill_lastRefill bucket ts]
    split at requests
    · rename_i enough
      have flow := mul_nonneg requests limits.refillPerMs_pos.le
      linarith
    · exact (div_le_iff₀ limits.refillPerMs_pos).mp requests
  · intro tpm set
    have positive := div_pos (limits.tpm_pos tpm set) (by norm_num : (0 : Rat) < 60000)
    have rate : limits.tpmRefillPerMs = tpm / 60000 := by
      rw [tpmRefillPerMs, Option.mem_def.mp set]
      rfl
    have stamp : (limits.refill bucket ts).budget.lastRefill = ts := by
      rw [limits.refill_budget _ set]
      rfl
    rw [limits.refill_budget _ set]
    refine TokenBucket.le_refill_tokens (weighed tpm set).2 ?_
    show weight - (limits.refill bucket ts).tpmTokens ≤ _
    rw [stamp]
    split at budget
    · rename_i enough
      have flow := mul_nonneg budget positive.le
      rcases enough with none | enough
      · rw [none] at set
        cases set
      · linarith
    · rw [rate] at budget
      exact (div_le_iff₀ positive).mp budget

theorem available_refill_queue (queue : List Waiter) (weight ts : Rat) :
    limits.available (limits.refill { bucket with queue } ts) weight ↔
      limits.available (limits.refill bucket ts) weight := by
  rw [available_iff, available_iff]
  refine and_congr ?_ (forall₂_congr fun tpm set => ?_)
  · rw [refill_requests, refill_requests]
    rfl
  · rw [limits.refill_budget _ set, limits.refill_budget _ set]
    rfl

end Limits

namespace Limiter

variable {limits : Limits} {limiter next : Limiter}

def requestsTaken (grants : List Grant) : List (Taking Rat) :=
  grants.map fun grant => ⟨grant.time, 1⟩

def weightTaken (grants : List Grant) : List (Taking Rat) :=
  grants.map fun grant => ⟨grant.time, grant.weight⟩

structure Metered (limits : Limits) (bucket : BucketState) (grants : List Grant)
    (clock : Rat) : Prop where
  requests : TokenBucket.Bounded limits.burst limits.refillPerMs bucket.requests
    (requestsTaken grants)
  budget : ∀ tpm ∈ limits.tpm,
    TokenBucket.Bounded tpm (tpm / 60000) bucket.budget (weightTaken grants)
  read : bucket.requests.lastRefill ≤ clock
  tpmRead : bucket.budget.lastRefill ≤ clock

namespace Metered

variable {bucket : BucketState} {grants : List Grant} {clock ts : Rat}

theorem start (order : first ≤ second) :
    Metered limits (limits.bucketFor first second) [] second where
  requests := .full (zero_le_one.trans limits.one_le_burst) limits.refillPerMs_pos.le first
  budget tpm set := by
    have positive := limits.tpm_pos tpm set
    have full := TokenBucket.Bounded.full positive.le
      (div_pos positive (by norm_num : (0 : Rat) < 60000)).le second
    rwa [BucketState.budget, Limits.bucketFor, Option.mem_def.mp set]
  read := order
  tpmRead := le_rfl

theorem refill (metered : Metered limits bucket grants clock) (order : clock ≤ ts) :
    Metered limits (limits.refill bucket ts) grants ts where
  requests := by
    rw [limits.refill_requests]
    exact metered.requests.refill limits.refillPerMs_pos.le (metered.read.trans order)
  budget tpm set := by
    have positive := div_pos (limits.tpm_pos tpm set) (by norm_num : (0 : Rat) < 60000)
    rw [limits.refill_budget _ set]
    exact (metered.budget tpm set).refill positive.le (metered.tpmRead.trans order)
  read := by
    rw [limits.refill_requests]
    exact le_rfl
  tpmRead := by
    cases set : limits.tpm with
    | none =>
      have same : (limits.refill bucket ts).budget = bucket.budget := by
        unfold Limits.refill
        rw [set]
        rfl
      rw [same]
      exact metered.tpmRead.trans order
    | some =>
      rw [limits.refill_budget _ set]
      exact le_rfl

theorem later (metered : Metered limits bucket grants clock) (order : clock ≤ ts) :
    Metered limits bucket grants ts where
  requests := metered.requests
  budget := metered.budget
  read := metered.read.trans order
  tpmRead := metered.tpmRead.trans order

theorem take (metered : Metered limits (limits.refill bucket ts) grants ts) {call : Nat}
    {weight : Rat} (weighed : limits.Weighed weight)
    (available : limits.available (limits.refill bucket ts) weight) :
    Metered limits (limits.take (limits.refill bucket ts) weight)
      (grants ++ [⟨call, ts, weight⟩]) ts where
  requests := by
    have taken := metered.requests.take limits.refillPerMs_pos.le zero_le_one available.1
    rw [limits.take_requests, requestsTaken, List.map_append]
    rwa [limits.refill_requests] at taken ⊢
  budget tpm set := by
    have positive := div_pos (limits.tpm_pos tpm set) (by norm_num : (0 : Rat) < 60000)
    have there := ((limits.available_iff _ _).mp available).2 tpm set
    have taken := (metered.budget tpm set).take positive.le (weighed tpm set).1 there
    rw [limits.take_budget _ set, weightTaken, List.map_append]
    rwa [limits.refill_budget _ set] at taken ⊢
  read := by
    rw [limits.take_requests]
    exact metered.read
  tpmRead := by
    have same : (limits.take (limits.refill bucket ts) weight).budget.lastRefill =
        (limits.refill bucket ts).budget.lastRefill := by
      unfold Limits.take
      split <;> rfl
    rw [same]
    exact metered.tpmRead

theorem queued (metered : Metered limits bucket grants clock)
    (requests : other.requests = bucket.requests) (budget : other.budget = bucket.budget) :
    Metered limits other grants clock where
  requests := by
    rw [requests]
    exact metered.requests
  budget := by
    rw [budget]
    exact metered.budget
  read := by
    rw [requests]
    exact metered.read
  tpmRead := by
    rw [budget]
    exact metered.tpmRead

end Metered

def calls (limiter : Limiter) : List Nat :=
  limiter.grants.map (·.call) ++ limiter.bucket.queue.map (·.call)

structure Lined (limits : Limits) (limiter : Limiter) : Prop where
  ascending : limiter.calls.Pairwise (· < ·)
  seen : ∀ call ∈ limiter.calls, call < limiter.arrived
  spared : ∀ grant ∈ limiter.grants, grant.call ∉ limiter.aborted
  marked : ∀ waiter ∈ limiter.bucket.queue,
    waiter.cancelled = true ↔ waiter.call ∈ limiter.aborted
  past : ∀ call ∈ limiter.aborted, call < limiter.arrived
  accounted : limits.mode = .queue → ∀ call < limiter.arrived,
    call ∈ limiter.calls ∨ call ∈ limiter.aborted

theorem Lined.joins (lined : Lined limits limiter)
    (calls : next.calls = limiter.calls ++ [limiter.arrived])
    (grants : ∀ grant ∈ next.grants, grant ∈ limiter.grants ∨ grant.call = limiter.arrived)
    (queue : ∀ waiter ∈ next.bucket.queue, waiter ∈ limiter.bucket.queue ∨
      waiter.cancelled = false ∧ waiter.call = limiter.arrived)
    (aborted : next.aborted = limiter.aborted)
    (arrived : next.arrived = limiter.arrived + 1) : Lined limits next where
  ascending := by
    rw [calls]
    refine List.pairwise_append.mpr ⟨lined.ascending, List.pairwise_singleton _ _, ?_⟩
    intro call among last only
    rw [List.mem_singleton.mp only]
    exact lined.seen call among
  seen call among := by
    rw [calls, List.mem_append, List.mem_singleton] at among
    rw [arrived]
    rcases among with earlier | rfl
    · exact Nat.lt_succ_of_lt (lined.seen call earlier)
    · exact Nat.lt_succ_self _
  spared grant among listed := by
    rw [aborted] at listed
    rcases grants grant among with earlier | last
    · exact lined.spared grant earlier listed
    · exact absurd (lined.past _ listed) (by omega)
  marked waiter among := by
    rw [aborted]
    rcases queue waiter among with earlier | ⟨fresh, last⟩
    · exact lined.marked waiter earlier
    · rw [fresh]
      refine iff_of_false nofun fun listed => ?_
      exact absurd (lined.past _ listed) (by omega)
  past call listed := by
    rw [aborted] at listed
    rw [arrived]
    exact Nat.lt_succ_of_lt (lined.past call listed)
  accounted mode call early := by
    rw [arrived] at early
    rw [calls, aborted, List.mem_append, List.mem_singleton]
    rcases Nat.lt_succ_iff_lt_or_eq.mp early with before | rfl
    · exact (lined.accounted mode call before).imp_left .inl
    · exact .inl (.inr rfl)

/-- What `acquire` comes to. -/
inductive Acquired (limits : Limits) (limiter : Limiter) (signal : Option Bool)
    (raw : Option Rat) (ts : Rat) : Limiter → Prop
  | aborted : signal = some true →
      Acquired limits limiter signal raw ts { limiter with
        arrived := limiter.arrived + 1
        clock := ts
        aborted := limiter.aborted ++ [limiter.arrived] }
  | granted : limits.available (limits.refill limiter.bucket ts) (limits.weightFor raw) →
      limiter.bucket.queue = [] →
      Acquired limits limiter signal raw ts
        (grant { limiter with arrived := limiter.arrived + 1, clock := ts } limits
          (limits.refill limiter.bucket ts) limiter.arrived (limits.weightFor raw))
  | refused : limits.mode = .throw →
      ¬ (limits.available (limits.refill limiter.bucket ts) (limits.weightFor raw) ∧
        limiter.bucket.queue = []) →
      Acquired limits limiter signal raw ts { limiter with
        arrived := limiter.arrived + 1
        clock := ts
        bucket := limits.refill limiter.bucket ts
        refused := limiter.refused ++ [(limiter.arrived,
          limits.waitMsFor (limits.refill limiter.bucket ts) (limits.weightFor raw))] }
  | queued : limits.mode = .queue →
      Acquired limits limiter signal raw ts (drain { limiter with
        arrived := limiter.arrived + 1
        clock := ts
        bucket := { limits.refill limiter.bucket ts with
          queue := limiter.bucket.queue ++
            [⟨limiter.arrived, signal.isSome, false, limits.weightFor raw⟩] } })

theorem acquired (limits : Limits) (limiter : Limiter) (signal : Option Bool)
    (raw : Option Rat) (ts : Rat) :
    Acquired limits limiter signal raw ts (limiter.acquire limits signal raw ts) := by
  unfold Limiter.acquire
  by_cases already : signal = some true
  · simp only [if_pos already]
    exact .aborted already
  · simp only [if_neg already, limits.refill_queue]
    by_cases free : limits.available (limits.refill limiter.bucket ts)
        (limits.weightFor raw) ∧ limiter.bucket.queue = []
    · simp only [if_pos free]
      exact .granted free.1 free.2
    · simp only [if_neg free]
      cases mode : limits.mode with
      | throw => exact .refused mode free
      | queue => exact .queued mode

@[simp] theorem drain_grants (limiter : Limiter) :
    limiter.drain.grants = limiter.grants := by
  unfold drain
  split <;> rfl

@[simp] theorem drain_queue (limiter : Limiter) :
    limiter.drain.bucket.queue = limiter.bucket.queue := by
  unfold drain
  split <;> rfl

@[simp] theorem drain_aborted (limiter : Limiter) :
    limiter.drain.aborted = limiter.aborted := by
  unfold drain
  split <;> rfl

@[simp] theorem drain_arrived (limiter : Limiter) :
    limiter.drain.arrived = limiter.arrived := by
  unfold drain
  split <;> rfl

@[simp] theorem drain_clock (limiter : Limiter) :
    limiter.drain.clock = limiter.clock := by
  unfold drain
  split <;> rfl

theorem Lined.acquire (lined : Lined limits limiter) {signal : Option Bool}
    {raw : Option Rat} {ts : Rat} (acquired : Acquired limits limiter signal raw ts next) :
    Lined limits next := by
  cases acquired with
  | aborted =>
    refine ⟨lined.ascending, ?_, ?_, ?_, ?_, ?_⟩
    · exact fun call among => Nat.lt_succ_of_lt (lined.seen call among)
    · intro grant among listed
      rcases List.mem_append.mp listed with earlier | only
      · exact lined.spared grant among earlier
      · have early := lined.seen grant.call
          (List.mem_append_left _ (List.mem_map_of_mem among))
        rw [List.mem_singleton.mp only] at early
        exact lt_irrefl _ early
    · intro waiter among
      rw [lined.marked waiter among, List.mem_append, List.mem_singleton]
      have early := lined.seen waiter.call
        (List.mem_append_right _ (List.mem_map_of_mem among))
      exact ⟨.inl, fun listed => listed.resolve_right early.ne⟩
    · intro call listed
      rcases List.mem_append.mp listed with earlier | only
      · exact Nat.lt_succ_of_lt (lined.past call earlier)
      · rw [List.mem_singleton.mp only]
        exact Nat.lt_succ_self _
    · intro mode call early
      rw [List.mem_append, List.mem_singleton]
      rcases Nat.lt_succ_iff_lt_or_eq.mp early with before | rfl
      · exact (lined.accounted mode call before).imp_right .inl
      · exact .inr (.inr rfl)
  | granted _ empty =>
    refine lined.joins ?_ ?_ ?_ rfl rfl
    · simp [calls, Limiter.grant, empty]
    · intro grant among
      exact (List.mem_append.mp among).imp_right fun only => by
        rw [List.mem_singleton.mp only]
    · intro waiter among
      simp [Limiter.grant, empty] at among
  | refused mode =>
    refine ⟨?_, ?_, lined.spared, ?_, ?_, ?_⟩
    · simpa [calls] using lined.ascending
    · intro call among
      refine Nat.lt_succ_of_lt (lined.seen call ?_)
      simpa [calls] using among
    · simpa using lined.marked
    · exact fun call listed => Nat.lt_succ_of_lt (lined.past call listed)
    · rw [mode]
      exact nofun
  | queued =>
    refine lined.joins ?_ ?_ ?_ (drain_aborted _) (drain_arrived _)
    · simp [calls]
    · intro grant among
      rw [drain_grants] at among
      exact .inl among
    · intro waiter among
      rw [drain_queue] at among
      refine (List.mem_append.mp among).imp_right fun only => ?_
      rw [List.mem_singleton.mp only]
      exact ⟨rfl, rfl⟩

@[simp] theorem cancel_call (call : Nat) (waiter : Waiter) :
    (cancel call waiter).call = waiter.call := by
  unfold cancel
  split <;> rfl

@[simp] theorem cancel_weight (call : Nat) (waiter : Waiter) :
    (cancel call waiter).weight = waiter.weight := by
  unfold cancel
  split <;> rfl

inductive Aborted (limiter : Limiter) (call : Nat) : Limiter → Prop
  | late : (∀ waiter ∈ limiter.bucket.queue, waiter.call = call → waiter.signal = true →
        waiter.cancelled = true) → Aborted limiter call limiter
  | marked : call ∈ limiter.bucket.queue.map (·.call) →
      Aborted limiter call { limiter with
        bucket := { limiter.bucket with queue := limiter.bucket.queue.map (cancel call) }
        aborted := limiter.aborted ++ [call] }

theorem aborted_of_abort (limiter : Limiter) (call : Nat) :
    Aborted limiter call (limiter.abort call) := by
  unfold Limiter.abort
  split
  · rename_i listening
    obtain ⟨waiter, among, listens⟩ := List.any_eq_true.mp listening
    refine .marked (List.mem_map.mpr ⟨waiter, among, ?_⟩)
    simp only [Bool.and_eq_true, decide_eq_true_eq] at listens
    exact listens.1.1
  · rename_i deaf
    refine .late fun waiter among own listens => ?_
    by_contra open'
    rw [Bool.not_eq_true] at open'
    refine deaf (List.any_eq_true.mpr ⟨waiter, among, ?_⟩)
    simp only [own, listens, open', decide_true, Bool.not_false, Bool.and_self]

/-- An abort of a call that waits with a signal is on record. -/
theorem Lined.records (lined : Lined limits limiter) {waiter : Waiter}
    (waits : waiter ∈ limiter.bucket.queue) (listens : waiter.signal = true) :
    waiter.call ∈ (limiter.abort waiter.call).aborted := by
  have aborted := aborted_of_abort limiter waiter.call
  generalize limiter.abort waiter.call = next at aborted
  cases aborted with
  | late earlier =>
    exact (lined.marked waiter waits).mp (earlier waiter waits rfl listens)
  | marked => exact List.mem_append_right _ List.mem_cons_self

theorem calls_cancel (limiter : Limiter) (call : Nat) :
    (limiter.bucket.queue.map (cancel call)).map (·.call) =
      limiter.bucket.queue.map (·.call) := by
  rw [List.map_map]
  exact List.map_congr_left fun waiter _ => cancel_call call waiter

theorem Lined.abort (lined : Lined limits limiter) {call : Nat}
    (aborted : Aborted limiter call next) : Lined limits next := by
  cases aborted with
  | late => exact lined
  | marked waiting =>
    have same := calls_cancel limiter call
    refine ⟨?_, ?_, ?_, ?_, ?_, ?_⟩
    · rw [calls, same]
      exact lined.ascending
    · rw [calls, same]
      exact lined.seen
    · intro grant among listed
      rcases List.mem_append.mp listed with earlier | only
      · exact lined.spared grant among earlier
      · have ordered := (List.pairwise_append.mp lined.ascending).2.2 grant.call
          (List.mem_map_of_mem among) call waiting
        rw [List.mem_singleton.mp only] at ordered
        exact lt_irrefl _ ordered
    · intro waiter among
      obtain ⟨earlier, listed, rfl⟩ := List.mem_map.mp among
      rw [cancel_call, List.mem_append, List.mem_singleton, ← lined.marked earlier listed,
        cancel]
      split
      · rename_i this
        exact iff_of_true rfl (.inr this)
      · rename_i other
        exact ⟨.inl, fun either => either.resolve_right other⟩
    · intro other listed
      rcases List.mem_append.mp listed with earlier | only
      · exact lined.past other earlier
      · rw [List.mem_singleton.mp only]
        exact lined.seen call (List.mem_append_right _ waiting)
    · intro mode other early
      rw [calls, same, List.mem_append (s := limiter.aborted)]
      exact (lined.accounted mode other early).imp_right .inl

inductive Turned (limits : Limits) (limiter : Limiter) (ts : Rat) : Limiter → Prop
  | ended : limiter.bucket.queue = [] →
      Turned limits limiter ts { limiter with
        bucket := { limiter.bucket with draining := false }
        loop := none }
  | dropped {head : Waiter} {rest : List Waiter} :
      limiter.bucket.queue = head :: rest → head.cancelled = true →
      Turned limits limiter ts { limiter with
        bucket := { limiter.bucket with queue := rest } }
  | granted {head : Waiter} {rest : List Waiter} :
      limiter.bucket.queue = head :: rest → head.cancelled = false →
      limits.available (limits.refill limiter.bucket ts) head.weight →
      Turned limits limiter ts (grant { limiter with clock := ts } limits
        { limits.refill limiter.bucket ts with queue := rest } head.call head.weight)
  | slept {head : Waiter} {rest : List Waiter} :
      limiter.bucket.queue = head :: rest → head.cancelled = false →
      ¬ limits.available (limits.refill limiter.bucket ts) head.weight →
      Turned limits limiter ts { limiter with
        clock := ts
        bucket := limits.refill limiter.bucket ts
        loop := some (.sleeping head.call ts
          (limits.waitMsFor (limits.refill limiter.bucket ts) head.weight)) }

theorem turned (limits : Limits) (limiter : Limiter) (ts : Rat) :
    Turned limits limiter ts (limiter.turn limits ts) := by
  unfold Limiter.turn
  cases queue : limiter.bucket.queue with
  | nil => exact .ended queue
  | cons head =>
    cases cancelled : head.cancelled with
    | true =>
      simp only [cancelled, if_true]
      exact .dropped queue cancelled
    | false =>
      simp only [cancelled, Bool.false_eq_true, if_false]
      by_cases free : limits.available (limits.refill limiter.bucket ts) head.weight
      · rw [if_pos free]
        exact .granted queue cancelled free
      · rw [if_neg free]
        exact .slept queue cancelled free

theorem Lined.turn (lined : Lined limits limiter) {ts : Rat}
    (turned : Turned limits limiter ts next) : Lined limits next := by
  cases turned with
  | ended => exact ⟨lined.1, lined.2, lined.3, lined.4, lined.5, lined.6⟩
  | @dropped head rest queue cancelled =>
    have inside : ∀ waiter ∈ rest, waiter ∈ limiter.bucket.queue := by
      rw [queue]
      exact fun waiter among => List.mem_cons_of_mem _ among
    have before : limiter.calls =
        limiter.grants.map (·.call) ++ head.call :: rest.map (·.call) := by
      rw [calls, queue, List.map_cons]
    refine ⟨?_, ?_, lined.spared, ?_, lined.past, ?_⟩
    · refine lined.ascending.sublist ?_
      rw [before]
      exact (List.sublist_cons_self _ _).append_left _
    · intro call among
      refine lined.seen call ?_
      rw [before]
      exact (((List.sublist_cons_self _ _).append_left _).mem among)
    · exact fun waiter among => lined.marked waiter (inside waiter among)
    · intro mode call early
      rcases lined.accounted mode call early with among | listed
      · rw [before, List.mem_append, List.mem_cons] at among
        rcases among with granted | rfl | waiting
        · exact .inl (List.mem_append_left _ granted)
        · refine .inr ((lined.marked head ?_).mp cancelled)
          rw [queue]
          exact List.mem_cons_self
        · exact .inl (List.mem_append_right _ waiting)
      · exact .inr listed
  | @granted head rest queue active available =>
    have top : head ∈ limiter.bucket.queue := by
      rw [queue]
      exact List.mem_cons_self
    have same : (grant { limiter with clock := ts } limits
        { limits.refill limiter.bucket ts with queue := rest } head.call
        head.weight).calls = limiter.calls := by
      simp [calls, grant, queue]
    refine ⟨?_, ?_, ?_, ?_, lined.past, ?_⟩
    · rw [same]
      exact lined.ascending
    · rw [same]
      exact lined.seen
    · intro grant among listed
      rcases List.mem_append.mp among with earlier | only
      · exact lined.spared grant earlier listed
      · rw [List.mem_singleton.mp only] at listed
        rw [(lined.marked head top).mpr listed] at active
        cases active
    · intro waiter among
      refine lined.marked waiter ?_
      rw [queue]
      exact List.mem_cons_of_mem _ (by simpa [grant] using among)
    · rw [same]
      exact lined.accounted
  | slept =>
    refine ⟨?_, ?_, lined.spared, ?_, lined.past, ?_⟩
    · simpa [calls] using lined.ascending
    · simpa [calls] using lined.seen
    · simpa using lined.marked
    · simpa [calls] using lined.accounted

structure Drained (limits : Limits) (limiter : Limiter) : Prop where
  running : limiter.bucket.draining = limiter.loop.isSome
  served : limiter.bucket.queue ≠ [] → limiter.loop.isSome = true
  weighed : ∀ waiter ∈ limiter.bucket.queue, limits.Weighed waiter.weight
  asleep : ∀ head since ms, limiter.loop = some (.sleeping head since ms) → 0 < ms ∧
    ∃ waiter rest, limiter.bucket.queue = waiter :: rest ∧ waiter.call = head ∧
      ∀ ts, since + ms ≤ ts → limiter.clock ≤ ts →
        limits.available (limits.refill limiter.bucket ts) waiter.weight
  direct : limits.mode = .throw → limiter.bucket.queue = []
  refused : ∀ refusal ∈ limiter.refused, 0 < refusal.2

theorem Drained.awake (drained : Drained limits limiter)
    (empty : limiter.bucket.queue = []) {head : Nat} {since : Rat} {ms : Int} :
    limiter.loop ≠ some (.sleeping head since ms) := by
  intro sleeps
  obtain ⟨-, waiter, rest, queue, -⟩ := drained.asleep head since ms sleeps
  rw [empty] at queue
  cases queue

theorem Drained.acquire (drained : Drained limits limiter) {signal : Option Bool}
    {raw : Option Rat} {ts : Rat} (order : limiter.clock ≤ ts)
    (acquired : Acquired limits limiter signal raw ts next) : Drained limits next := by
  cases acquired with
  | aborted =>
    refine ⟨drained.running, drained.served, drained.weighed, ?_, drained.direct,
      drained.refused⟩
    intro head since ms sleeps
    obtain ⟨positive, waiter, rest, queue, this, enough⟩ :=
      drained.asleep head since ms sleeps
    exact ⟨positive, waiter, rest, queue, this, fun later passed after =>
      enough later passed (order.trans after)⟩
  | granted _ empty =>
    refine ⟨?_, ?_, ?_, ?_, ?_, drained.refused⟩
    · simpa [grant] using drained.running
    · simp [grant, empty]
    · simp [grant, empty]
    · exact fun head since ms sleeps => absurd sleeps (drained.awake empty)
    · simp [grant, empty]
  | refused mode short =>
    have empty := drained.direct mode
    refine ⟨?_, ?_, ?_, ?_, ?_, ?_⟩
    · simpa using drained.running
    · simp [empty]
    · simp [empty]
    · exact fun head since ms sleeps => absurd sleeps (drained.awake empty)
    · simp [empty]
    · intro refusal listed
      rcases List.mem_append.mp listed with earlier | only
      · exact drained.refused refusal earlier
      · rw [List.mem_singleton.mp only]
        exact limits.waitMsFor_pos _ fun available => short ⟨available, empty⟩
  | queued mode =>
    have weighed : ∀ waiter ∈ limiter.bucket.queue ++
        [⟨limiter.arrived, signal.isSome, false, limits.weightFor raw⟩],
        limits.Weighed waiter.weight := by
      intro waiter among
      rcases List.mem_append.mp among with earlier | only
      · exact drained.weighed waiter earlier
      · rw [List.mem_singleton.mp only]
        exact limits.weightFor_weighed raw
    have queued : limits.mode ≠ .throw := by
      rw [mode]
      exact nofun
    unfold drain
    split
    · rename_i draining
      have awake : limiter.loop.isSome = true := by
        rw [← drained.running]
        simpa using draining
      refine ⟨?_, fun _ => awake, weighed, ?_, fun mode => absurd mode queued,
        drained.refused⟩
      · simpa using drained.running
      · intro head since ms sleeps
        obtain ⟨positive, waiter, rest, queue, this, enough⟩ :=
          drained.asleep head since ms sleeps
        refine ⟨positive, waiter, _, by rw [queue, List.cons_append], this, ?_⟩
        intro later passed after
        refine (limits.available_refill_queue (limits.refill limiter.bucket ts) _ _
          later).mpr ?_
        exact (limits.available_refill_refill _ after).mpr
          (enough later passed (order.trans after))
    · exact ⟨rfl, fun _ => rfl, weighed, nofun, fun mode => absurd mode queued,
        drained.refused⟩

theorem Drained.abort (drained : Drained limits limiter) {call : Nat}
    (aborted : Aborted limiter call next) : Drained limits next := by
  cases aborted with
  | late => exact drained
  | marked =>
    refine ⟨drained.running, ?_, ?_, ?_, ?_, drained.refused⟩
    · intro waits
      exact drained.served fun empty => waits (by rw [empty]; rfl)
    · intro waiter among
      obtain ⟨earlier, listed, rfl⟩ := List.mem_map.mp among
      rw [cancel_weight]
      exact drained.weighed earlier listed
    · intro head since ms sleeps
      obtain ⟨positive, waiter, rest, queue, this, enough⟩ :=
        drained.asleep head since ms sleeps
      refine ⟨positive, cancel call waiter, rest.map (cancel call), ?_, ?_, ?_⟩
      · rw [queue, List.map_cons]
      · rw [cancel_call, this]
      · intro later passed after
        rw [cancel_weight]
        exact (limits.available_refill_queue limiter.bucket _ _ later).mpr
          (enough later passed after)
    · intro mode
      rw [drained.direct mode]
      rfl

theorem Drained.turn (drained : Drained limits limiter)
    (turning : limiter.loop = some .turning) {ts : Rat}
    (turned : Turned limits limiter ts next) : Drained limits next := by
  have awake : ∀ head since ms, limiter.loop ≠ some (.sleeping head since ms) := by
    rw [turning]
    exact nofun
  have some : limiter.loop.isSome = true := by
    rw [turning]
    rfl
  cases turned with
  | ended empty =>
    exact ⟨rfl, fun waits => absurd empty waits, drained.weighed, nofun, drained.direct,
      drained.refused⟩
  | @dropped head rest queue cancelled =>
    refine ⟨drained.running, fun _ => some, ?_, ?_, ?_, drained.refused⟩
    · intro waiter among
      refine drained.weighed waiter ?_
      rw [queue]
      exact List.mem_cons_of_mem _ among
    · exact fun head since ms sleeps => absurd sleeps (awake head since ms)
    · intro mode
      have empty := drained.direct mode
      rw [queue] at empty
      cases empty
  | @granted head rest queue active available =>
    refine ⟨?_, fun _ => some, ?_, ?_, ?_, drained.refused⟩
    · simpa [grant] using drained.running
    · intro waiter among
      refine drained.weighed waiter ?_
      rw [queue]
      exact List.mem_cons_of_mem _ (by simpa [grant] using among)
    · exact fun head since ms sleeps => absurd sleeps (awake head since ms)
    · intro mode
      have empty := drained.direct mode
      rw [queue] at empty
      cases empty
  | @slept head rest queue active short =>
    refine ⟨?_, fun _ => rfl, ?_, ?_, ?_, drained.refused⟩
    · rw [limits.refill_draining, drained.running, some]
      rfl
    · simpa using drained.weighed
    · intro waiting since ms sleeps
      cases sleeps
      refine ⟨limits.waitMsFor_pos _ short, head, rest, ?_, rfl, ?_⟩
      · rw [limits.refill_queue, queue]
      · intro later passed _
        refine limits.available_after_wait _ (drained.weighed head ?_) passed
        rw [queue]
        exact List.mem_cons_self
    · simpa using drained.direct

structure Fair (limits : Limits) (limiter : Limiter) : Prop where
  metered : Metered limits limiter.bucket limiter.grants limiter.clock
  lined : Lined limits limiter
  drained : Drained limits limiter

theorem Metered.acquire {signal : Option Bool} {raw : Option Rat} {ts : Rat}
    (metered : Metered limits limiter.bucket limiter.grants limiter.clock)
    (order : limiter.clock ≤ ts)
    (acquired : Acquired limits limiter signal raw ts next) :
    Metered limits next.bucket next.grants next.clock := by
  have refilled := metered.refill order
  cases acquired with
  | aborted => exact metered.later order
  | granted available =>
    have taken : Metered limits _ (limiter.grants ++ [⟨limiter.arrived, ts, _⟩]) ts :=
      refilled.take (limits.weightFor_weighed raw) available
    show Metered limits _ (limiter.grants ++ [⟨_, (limits.refill _ ts).lastRefill, _⟩]) ts
    rw [limits.refill_lastRefill]
    exact taken
  | refused => exact refilled
  | queued =>
    rw [drain_grants, drain_clock]
    refine refilled.queued ?_ ?_
    · unfold drain
      split <;> rfl
    · unfold drain
      split <;> rfl

theorem Metered.turn {ts : Rat}
    (metered : Metered limits limiter.bucket limiter.grants limiter.clock)
    (weighed : ∀ waiter ∈ limiter.bucket.queue, limits.Weighed waiter.weight)
    (order : limiter.clock ≤ ts) (turned : Turned limits limiter ts next) :
    Metered limits next.bucket next.grants next.clock := by
  have refilled := metered.refill order
  cases turned with
  | ended => exact metered.queued rfl rfl
  | dropped => exact metered.queued rfl rfl
  | @granted head rest queue active available =>
    have top : head ∈ limiter.bucket.queue := by
      rw [queue]
      exact List.mem_cons_self
    have taken : Metered limits _ (limiter.grants ++ [⟨head.call, ts, _⟩]) ts :=
      refilled.take (weighed head top) available
    show Metered limits _ (limiter.grants ++ [⟨_, (limits.refill _ ts).lastRefill, _⟩]) ts
    rw [limits.refill_lastRefill]
    have same := limits.take_with_queue (limits.refill limiter.bucket ts) rest head.weight
    exact taken.queued same.1 same.2
  | slept => exact refilled

theorem fair_start (limits : Limits) (order : first ≤ second) :
    Fair limits (start limits first second) where
  metered := .start order
  lined := ⟨.nil, nofun, nofun, nofun, nofun, nofun⟩
  drained := ⟨rfl, fun waits => absurd rfl waits, nofun, nofun, fun _ => rfl, nofun⟩

theorem Fair.step (fair : Fair limits limiter) {action : Action}
    (step : Step limits limiter action next) : Fair limits next := by
  cases step with
  | @acquire signal raw ts idle order =>
    have acquired := acquired limits limiter signal raw ts
    exact ⟨fair.metered.acquire order acquired, fair.lined.acquire acquired,
      fair.drained.acquire order acquired⟩
  | @abort call idle =>
    have aborted := aborted_of_abort limiter call
    refine ⟨?_, fair.lined.abort aborted, fair.drained.abort aborted⟩
    generalize limiter.abort call = next at aborted
    cases aborted with
    | late => exact fair.metered
    | marked => exact fair.metered.queued rfl rfl
  | @wake head since ms sleeps =>
    obtain ⟨metered, lined, drained⟩ := fair
    refine ⟨metered, ⟨lined.1, lined.2, lined.3, lined.4, lined.5, lined.6⟩, ?_⟩
    refine ⟨?_, fun _ => rfl, drained.weighed, nofun, drained.direct, drained.refused⟩
    rw [drained.running, sleeps]
    rfl
  | @turn ts turning order =>
    have turned := turned limits limiter ts
    exact ⟨fair.metered.turn fair.drained.weighed order turned, fair.lined.turn turned,
      fair.drained.turn turning turned⟩

theorem Reachable.fair (order : first ≤ second)
    (reached : Reachable limits first second limiter) : Fair limits limiter := by
  induction reached with
  | start => exact fair_start limits order
  | step _ step ih => exact ih.step step

inductive Ungranted (limits : Limits) (limiter : Limiter) : Limiter → Prop
  | refl : Ungranted limits limiter limiter
  | step {between next : Limiter} {action : Action} : Ungranted limits limiter between →
      Step limits between action next → next.grants = between.grants →
        Ungranted limits limiter next

/-- The bucket can serve the weight from `since` on. -/
structure Ripe (limits : Limits) (weight since : Rat) (limiter : Limiter) : Prop where
  fair : Fair limits limiter
  serves : ∀ ts, since ≤ ts → limiter.clock ≤ ts →
    limits.available (limits.refill limiter.bucket ts) weight

variable {weight since : Rat}

theorem Ripe.step (ripe : Ripe limits weight since limiter) (direct : limits.mode = .throw)
    {action : Action} (step : Step limits limiter action next)
    (same : next.grants = limiter.grants) : Ripe limits weight since next := by
  refine ⟨ripe.fair.step step, ?_⟩
  have empty := ripe.fair.drained.direct direct
  cases step with
  | @acquire signal raw ts idle order =>
    have acquired := acquired limits limiter signal raw ts
    generalize limiter.acquire limits signal raw ts = next at acquired same
    cases acquired with
    | aborted =>
      exact fun later passed after => ripe.serves later passed (order.trans after)
    | granted => simp [grant] at same
    | refused =>
      exact fun later passed after => (limits.available_refill_refill _ after).mpr
        (ripe.serves later passed (order.trans after))
    | queued mode => cases direct.symm.trans mode
  | @abort call idle =>
    have aborted := aborted_of_abort limiter call
    generalize limiter.abort call = next at aborted
    cases aborted with
    | late => exact ripe.serves
    | marked =>
      exact fun later passed after =>
        (limits.available_refill_queue limiter.bucket _ _ later).mpr
          (ripe.serves later passed after)
  | wake => exact ripe.serves
  | @turn ts turning order =>
    have turned := turned limits limiter ts
    generalize limiter.turn limits ts = next at turned
    cases turned with
    | ended =>
      intro later passed after
      have served := ripe.serves later passed after
      rw [Limits.available_iff] at served ⊢
      rw [limits.refill_requests] at served ⊢
      exact ⟨served.1, fun tpm set => by
        have enough := served.2 tpm set
        rwa [limits.refill_budget _ set] at enough ⊢⟩
    | dropped queue => cases empty.symm.trans queue
    | granted queue => cases empty.symm.trans queue
    | slept queue => cases empty.symm.trans queue

theorem Ripe.run (ripe : Ripe limits weight since limiter) (direct : limits.mode = .throw)
    (ungranted : Ungranted limits limiter final) : Ripe limits weight since final := by
  induction ungranted with
  | refl => exact ripe
  | step _ step same ih => exact ih.step direct step same

/-- In `throw` mode a call that was refused with a wait of `ms` is granted once that long has
passed and nothing was granted meanwhile, whatever other calls came and were refused. This is
exact arithmetic: with rounded numbers the bucket may be a hair short then. -/
theorem retry_after_is_enough {first second : Rat} (order : first ≤ second)
    (direct : limits.mode = .throw) (reached : Reachable limits first second limiter)
    (idle : limiter.idle) {ts later : Rat} (now : limiter.clock ≤ ts)
    {signal again : Option Bool} {raw : Option Rat} {ms : Int}
    (refused : (limiter.acquire limits signal raw ts).refused =
      limiter.refused ++ [(limiter.arrived, ms)])
    (ungranted : Ungranted limits (limiter.acquire limits signal raw ts) final)
    (waited : ts + ms ≤ later) (after : final.clock ≤ later) (live : again ≠ some true) :
    0 < ms ∧ (final.acquire limits again raw later).grants =
      final.grants ++ [⟨final.arrived, later, limits.weightFor raw⟩] := by
  have fair := (reached.fair order).step (@Step.acquire limits _ signal raw ts idle now)
  have ripe : 0 < ms ∧ Ripe limits (limits.weightFor raw) (ts + ms)
      (limiter.acquire limits signal raw ts) := by
    have acquired := acquired limits limiter signal raw ts
    generalize limiter.acquire limits signal raw ts = next at acquired refused fair
    cases acquired with
    | aborted => simp at refused
    | granted => simp [grant] at refused
    | queued mode => cases direct.symm.trans mode
    | refused =>
      have same := List.append_cancel_left refused
      simp only [List.cons.injEq, Prod.mk.injEq, true_and, and_true] at same
      subst same
      exact ⟨fair.drained.refused _ (List.mem_append_right _ List.mem_cons_self), fair,
        fun _ passed _ => limits.available_after_wait _ (limits.weightFor_weighed raw) passed⟩
  have still := ripe.2.run direct ungranted
  refine ⟨ripe.1, ?_⟩
  unfold acquire
  rw [if_neg live]
  simp only [limits.refill_queue, still.fair.drained.direct direct, and_true,
    still.serves later waited after, if_true, grant, limits.refill_lastRefill]

/-- One request a second and a hundred tokens a minute. -/
def everySecond : Limits where
  requestsPerMinute := 60
  burst := 1
  tpm := some 100
  mode := .queue
  requests_pos := by norm_num
  one_le_burst := le_rfl
  tpm_pos budget set := by
    cases set
    norm_num

def granted : Limiter where
  bucket := ⟨0, 0, 60, 0, [], false⟩
  clock := 0
  arrived := 1
  grants := [⟨0, 0, 40⟩]

def queued (loop : Loop) : Limiter where
  bucket := ⟨0, 0, 60, 0, [⟨1, false, false, 30⟩], true⟩
  clock := 0
  loop := some loop
  arrived := 2
  grants := [⟨0, 0, 40⟩]

def refusing : Limits := { everySecond with mode := .throw }

def refusedOnce : Limiter := { granted with arrived := 2, refused := [(1, 1000)] }

theorem refusing_granted :
    (start refusing 0 0).acquire refusing none (some 40) 0 = granted := by
  simp [acquire, start, refusing, everySecond, Limits.bucketFor, Limits.refill,
    Limits.weightFor, Limits.available, grant, Limits.take, granted]
  norm_num

theorem granted_refused :
    granted.acquire refusing none (some 30) 0 = refusedOnce := by
  simp [acquire, refusing, everySecond, Limits.refill, Limits.weightFor, Limits.available,
    Limits.waitMsFor, Limits.refillPerMs, granted, refusedOnce]
  norm_num

theorem refused_call_returns :
    (refusedOnce.acquire refusing none (some 30) 1000).grants.map (·.call) = [0, 2] := by
  have reached : Reachable refusing 0 0 granted := by
    rw [← refusing_granted]
    exact .step .start (.acquire nofun le_rfl)
  have refused : (granted.acquire refusing none (some 30) 0).refused =
      granted.refused ++ [(granted.arrived, 1000)] := by
    rw [granted_refused]
    rfl
  have ungranted : Ungranted refusing (granted.acquire refusing none (some 30) 0)
      refusedOnce := by
    rw [granted_refused]
    exact .refl
  have again := (retry_after_is_enough le_rfl rfl reached nofun le_rfl refused ungranted
    (by norm_num [granted]) (by norm_num [refusedOnce, granted] : refusedOnce.clock ≤ 1000)
    (nofun : none ≠ some true)).2
  rw [again]
  rfl

end Limiter

end Graphorin.Provider.RateLimit
