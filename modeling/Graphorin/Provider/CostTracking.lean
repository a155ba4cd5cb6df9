import Graphorin.Audit.Canonical
import Graphorin.Lib.OrderedMap
import Mathlib.Algebra.BigOperators.Group.List.Basic
import Mathlib.Algebra.Order.Field.Rat
import Mathlib.Data.List.Induction
import Mathlib.Data.Multiset.AddSub
import Mathlib.Tactic.Abel
import Mathlib.Tactic.Linarith
import Mathlib.Tactic.NormNum
import Mathlib.Tactic.Positivity
import Mathlib.Tactic.Ring

namespace Graphorin.Provider.CostTracking

open Audit Lib

/-! `withCostTracking`: what a call costs, when it is reported, and the totals of what was
reported. Amounts are exact. -/

structure Cost where
  amount : Rat
  currency : JsText
  deriving DecidableEq

structure Usage where
  promptTokens : Nat
  completionTokens : Nat
  reasoningTokens : Option Nat := none
  cachedReadTokens : Option Nat := none
  cacheWriteTokens : Option Nat := none
  totalTokens : Nat
  cost : Option Cost := none
  deriving DecidableEq

structure Price where
  inputPerMtok : Option Rat := none
  outputPerMtok : Option Rat := none
  cachedReadPerMtok : Option Rat := none
  cacheWritePerMtok : Option Rat := none

structure TrackedProvider where
  name : JsText
  modelId : JsText

structure UsageInfo (μ : Type) where
  providerName : JsText
  modelId : JsText
  promptTokens : Nat
  completionTokens : Nat
  totalTokens : Nat
  cachedReadTokens : Option Nat
  cacheWriteTokens : Option Nat
  costUsd : Rat
  metadata : Option μ

/-- `onUsage` says whether there is a hook. -/
structure WithCostTrackingOptions where
  onUsage : Bool
  priceLookup : Option (JsText → JsText → Option Price) := none

structure PricedUsage where
  usage : Usage
  costUsd : Rat
  stamped : Bool

namespace Price

variable (price : Price)

def inputRate : Rat := price.inputPerMtok.getD 0

def cachedReadRate : Rat := price.cachedReadPerMtok.getD price.inputRate

def cacheWriteRate : Rat := price.cacheWritePerMtok.getD price.inputRate

def outputRate : Rat := price.outputPerMtok.getD 0

def cost (usage : Usage) : Rat :=
  let cachedRead : Rat := usage.cachedReadTokens.getD 0
  let cacheWrite : Rat := usage.cacheWriteTokens.getD 0
  let basePromptTokens := max 0 (usage.promptTokens - cachedRead - cacheWrite)
  (basePromptTokens * price.inputRate +
      cachedRead * price.cachedReadRate +
      cacheWrite * price.cacheWriteRate +
      (usage.completionTokens + usage.reasoningTokens.getD 0) * price.outputRate) / 1000000

end Price

variable {ε μ : Type} (opts : WithCostTrackingOptions) (next : TrackedProvider)

def lookup : Option Price :=
  opts.priceLookup.bind fun priceLookup => priceLookup next.name next.modelId

def priceUsage (usage : Usage) : PricedUsage :=
  match lookup opts next with
  | none => ⟨usage, usage.cost.elim 0 Cost.amount, false⟩
  | some price =>
    let costUsd := price.cost usage
    ⟨{ usage with cost := some ⟨costUsd, ascii "USD"⟩ }, costUsd, true⟩

def emitUsage (priced : PricedUsage) (metadata : Option μ) : List (UsageInfo μ) :=
  if opts.onUsage then
    [{ providerName := next.name
       modelId := next.modelId
       promptTokens := priced.usage.promptTokens
       completionTokens := priced.usage.completionTokens
       totalTokens := priced.usage.totalTokens
       cachedReadTokens := priced.usage.cachedReadTokens
       cacheWriteTokens := priced.usage.cacheWriteTokens
       costUsd := priced.costUsd
       metadata }]
  else []

inductive ProviderEvent (ε : Type)
  | finish (usage : Usage) (rest : ε)
  | other (event : ε)

/-- What a consumer asks of a generator; it leaves by `return` or by `throw`. -/
inductive Request
  | next
  | leave
  deriving DecidableEq

/-- A run of `trackingStream`: `events` is all that the provider yields, `requests` what the
consumer has asked for. After a finish was yielded its price stands in `emitting`. -/
structure TrackingStream (ε μ : Type) where
  metadata : Option μ
  events : List (ProviderEvent ε)
  requests : List Request := []
  remaining : List (ProviderEvent ε) := events
  emitting : Option PricedUsage := none
  closed : Bool := false

/-- What the consumer is given and what is reported. -/
structure Answer (ε μ : Type) where
  event : Option (ProviderEvent ε) := none
  reports : List (UsageInfo μ) := []

namespace TrackingStream

variable (stream : TrackingStream ε μ)

def emit : List (UsageInfo μ) :=
  stream.emitting.elim [] fun priced => emitUsage opts next priced stream.metadata

/-- The generator goes on after its last `yield` to the next one. -/
def resume : TrackingStream ε μ × Answer ε μ :=
  match stream.remaining with
  | [] => ({ stream with emitting := none, closed := true },
      { reports := stream.emit opts next })
  | event :: remaining =>
    match event with
    | .finish usage rest =>
      let priced := priceUsage opts next usage
      ({ stream with remaining, emitting := some priced },
        { event := some (.finish priced.usage rest), reports := stream.emit opts next })
    | .other event => ({ stream with remaining, emitting := none },
        { event := some (.other event), reports := stream.emit opts next })

def answer (request : Request) : TrackingStream ε μ × Answer ε μ :=
  let stream := { stream with requests := stream.requests ++ [request] }
  if stream.closed then (stream, {})
  else
    match request with
    | .next => stream.resume opts next
    | .leave => ({ stream with emitting := none, closed := true }, {})

end TrackingStream

/-- A tracked provider: its streams, the usages its callers were handed, in finish events and
in results, and what was reported. -/
structure Session (ε μ : Type) where
  streams : List (TrackingStream ε μ) := []
  delivered : List (Option μ × Usage) := []
  reports : List (UsageInfo μ) := []

/-- `generate` brings a usage or rejects. -/
inductive Action (ε μ : Type)
  | stream (metadata : Option μ) (events : List (ProviderEvent ε))
  | request (index : Nat) (request : Request)
  | generate (metadata : Option μ) (result : Option Usage)

def ProviderEvent.usage? : ProviderEvent ε → Option Usage
  | .finish usage _ => some usage
  | .other _ => none

namespace Session

def step (session : Session ε μ) : Action ε μ → Session ε μ
  | .stream metadata events =>
    { session with streams := session.streams ++ [{ metadata, events }] }
  | .request index request =>
    match session.streams[index]? with
    | none => session
    | some stream =>
      let answered := stream.answer opts next request
      { streams := session.streams.set index answered.1
        delivered := session.delivered ++
          (answered.2.event.bind ProviderEvent.usage?).toList.map fun usage =>
            (stream.metadata, usage)
        reports := session.reports ++ answered.2.reports }
  | .generate _ none => session
  | .generate metadata (some usage) =>
    let priced := priceUsage opts next usage
    { session with
      delivered := session.delivered ++ [(metadata, priced.usage)]
      reports := session.reports ++ emitUsage opts next priced metadata }

def run (actions : List (Action ε μ)) : Session ε μ :=
  actions.foldl (step opts next) {}

end Session

structure CostTrackingTotals where
  callCount : Nat := 0
  promptTokens : Nat := 0
  completionTokens : Nat := 0
  totalTokens : Nat := 0
  cachedReadTokens : Nat := 0
  cacheWriteTokens : Nat := 0
  costUsd : Rat := 0

def keyOf (providerName modelId : JsText) : JsText := providerName ++ ascii "::" ++ modelId

abbrev CostAccumulator := OrderedMap JsText CostTrackingTotals

namespace CostAccumulator

def onUsage (map : CostAccumulator) (info : UsageInfo μ) : CostAccumulator :=
  let key := keyOf info.providerName info.modelId
  let prev := (map.get key).getD {}
  map.set key {
    callCount := prev.callCount + 1
    promptTokens := prev.promptTokens + info.promptTokens
    completionTokens := prev.completionTokens + info.completionTokens
    totalTokens := prev.totalTokens + info.totalTokens
    cachedReadTokens := prev.cachedReadTokens + info.cachedReadTokens.getD 0
    cacheWriteTokens := prev.cacheWriteTokens + info.cacheWriteTokens.getD 0
    costUsd := prev.costUsd + info.costUsd }

end CostAccumulator

def asked : List Request → Nat
  | [] => 0
  | .leave :: _ => 0
  | .next :: rest => asked rest + 1

theorem asked_append (requests : List Request) (request : Request) :
    asked (requests ++ [request]) =
      asked requests + if .leave ∈ requests ∨ request = .leave then 0 else 1 := by
  induction requests with
  | nil => cases request <;> rfl
  | cons head rest ih =>
    cases head with
    | leave => simp [asked]
    | next =>
      rw [List.cons_append, asked, ih, asked]
      simp [Nat.add_right_comm]

/-- What the consumer of a stream was given last, if that is a finish. -/
def latest (events : List (ProviderEvent ε)) : Nat → Option Usage
  | 0 => none
  | count + 1 => events[count]?.bind ProviderEvent.usage?

def report (delivered : Option μ × Usage) : UsageInfo μ where
  providerName := next.name
  modelId := next.modelId
  promptTokens := delivered.2.promptTokens
  completionTokens := delivered.2.completionTokens
  totalTokens := delivered.2.totalTokens
  cachedReadTokens := delivered.2.cachedReadTokens
  cacheWriteTokens := delivered.2.cacheWriteTokens
  costUsd := delivered.2.cost.elim 0 Cost.amount
  metadata := delivered.1

variable {opts next}

theorem emitUsage_eq (hooked : opts.onUsage = true) (usage : Usage) (metadata : Option μ) :
    emitUsage opts next (priceUsage opts next usage) metadata =
      [report next (metadata, (priceUsage opts next usage).usage)] := by
  rw [emitUsage, if_pos hooked, priceUsage]
  split <;> rfl

namespace TrackingStream

structure Stands (opts : WithCostTrackingOptions) (next : TrackedProvider)
    (stream : TrackingStream ε μ) : Prop where
  left : stream.closed = true →
    .leave ∈ stream.requests ∨ stream.events.length < asked stream.requests
  stays : stream.closed = false → .leave ∉ stream.requests
  inside : stream.closed = false → asked stream.requests ≤ stream.events.length
  remaining : stream.closed = false →
    stream.remaining = stream.events.drop (asked stream.requests)
  emitting : stream.closed = false →
    stream.emitting = (latest stream.events (asked stream.requests)).map
      (priceUsage opts next)

/-- The consumer's last event is a finish. -/
def RestsAtFinish (stream : TrackingStream ε μ) : Prop :=
  ∃ count usage rest, asked stream.requests = count + 1 ∧
    stream.events[count]? = some (.finish usage rest)

variable (opts next) in
def standing (stream : TrackingStream ε μ) : List (Option μ × Usage) :=
  (latest stream.events (asked stream.requests)).toList.map fun usage =>
    (stream.metadata, (priceUsage opts next usage).usage)

theorem standing_eq_nil {stream : TrackingStream ε μ} :
    stream.standing opts next = [] ↔ ¬ stream.RestsAtFinish := by
  rw [standing, List.map_eq_nil_iff, Option.toList_eq_nil_iff, RestsAtFinish]
  cases requested : asked stream.requests with
  | zero => simp [latest]
  | succ count =>
    rw [latest]
    cases here : stream.events[count]? with
    | none =>
      refine iff_of_true rfl ?_
      rintro ⟨other, usage, rest, same, there⟩
      cases same
      rw [here] at there
      cases there
    | some event =>
      cases event with
      | finish usage rest =>
        refine iff_of_false nofun ?_
        exact fun absent => absent ⟨count, usage, rest, rfl, here⟩
      | other =>
        refine iff_of_true rfl ?_
        rintro ⟨other, usage, rest, same, there⟩
        cases same
        rw [here] at there
        cases there

variable {stream : TrackingStream ε μ}

theorem emit_eq (hooked : opts.onUsage = true) (stands : stream.Stands opts next)
    (running : stream.closed = false) :
    stream.emit opts next = (stream.standing opts next).map (report next) := by
  rw [emit, stands.emitting running, standing]
  cases latest stream.events (asked stream.requests) with
  | none => rfl
  | some usage => exact emitUsage_eq hooked usage stream.metadata

/-- What a request does: a finish that stood is reported, or stands on. -/
structure Answered (opts : WithCostTrackingOptions) (next : TrackedProvider)
    (stream : TrackingStream ε μ) (answered : TrackingStream ε μ × Answer ε μ) : Prop where
  stands : answered.1.Stands opts next
  reported : (stream.standing opts next ++
      (answered.2.event.bind ProviderEvent.usage?).toList.map fun usage =>
        (stream.metadata, usage)).map (report next) =
    answered.2.reports ++ (answered.1.standing opts next).map (report next)

theorem answered_closed (stands : stream.Stands opts next) (request : Request)
    (closed : stream.closed = true) : Answered opts next stream
      ({ stream with requests := stream.requests ++ [request] }, {}) := by
  have more := asked_append stream.requests request
  have same : latest stream.events (asked (stream.requests ++ [request])) =
      latest stream.events (asked stream.requests) := by
    rcases stands.left closed with left | exhausted
    · rw [more, if_pos (.inl left), Nat.add_zero]
    · obtain ⟨count, requested⟩ := Nat.exists_eq_add_one_of_ne_zero
        (Nat.ne_zero_of_lt exhausted)
      rw [more, requested]
      rw [requested] at exhausted
      have beyond : stream.events[count]? = none :=
        List.getElem?_eq_none (by omega)
      have further : stream.events[count + 1]? = none :=
        List.getElem?_eq_none (by omega)
      split
      · rfl
      · rw [latest, latest, beyond, further]
  refine ⟨⟨fun _ => ?_, ?_, ?_, ?_, ?_⟩, ?_⟩
  · rcases stands.left closed with left | exhausted
    · exact .inl (List.mem_append_left _ left)
    · refine .inr ?_
      rw [more]
      exact Nat.lt_add_right _ exhausted
  · exact fun running => absurd (closed.symm.trans running) nofun
  · exact fun running => absurd (closed.symm.trans running) nofun
  · exact fun running => absurd (closed.symm.trans running) nofun
  · exact fun running => absurd (closed.symm.trans running) nofun
  · rw [standing, standing, same]
    exact congrArg (List.map _) (List.append_nil _)

theorem answered_leave (stream : TrackingStream ε μ) :
    Answered opts next stream ({ stream with
      requests := stream.requests ++ [.leave], emitting := none, closed := true }, {}) := by
  have same := asked_append stream.requests .leave
  rw [if_pos (.inr rfl), Nat.add_zero] at same
  refine ⟨⟨fun _ => .inl (by simp), nofun, nofun, nofun, nofun⟩, ?_⟩
  rw [standing, standing, same]
  exact congrArg (List.map _) (List.append_nil _)

variable (opts next stream) in
theorem resume_ended (ended : stream.remaining = []) : stream.resume opts next =
    ({ stream with emitting := none, closed := true },
      { reports := stream.emit opts next }) := by
  rw [resume, ended]

variable {remaining : List (ProviderEvent ε)}

variable (opts next stream) in
theorem resume_finish {usage : Usage} {rest : ε}
    (yields : stream.remaining = .finish usage rest :: remaining) :
    stream.resume opts next =
      ({ stream with remaining, emitting := some (priceUsage opts next usage) },
        { event := some (.finish (priceUsage opts next usage).usage rest)
          reports := stream.emit opts next }) := by
  rw [resume, yields]

variable (opts next stream) in
theorem resume_other {event : ε} (yields : stream.remaining = .other event :: remaining) :
    stream.resume opts next =
      ({ stream with remaining, emitting := none },
        { event := some (.other event), reports := stream.emit opts next }) := by
  rw [resume, yields]

theorem answered_next (hooked : opts.onUsage = true) (stands : stream.Stands opts next)
    (running : stream.closed = false) : Answered opts next stream
      (resume opts next { stream with requests := stream.requests ++ [.next] }) := by
  have stays := stands.stays running
  have inside := stands.inside running
  have remaining := stands.remaining running
  have more := asked_append stream.requests .next
  rw [if_neg (by simp [stays])] at more
  have emits : emit opts next { stream with requests := stream.requests ++ [.next] } =
      (stream.standing opts next).map (report next) := emit_eq hooked stands running
  have here : latest stream.events (asked (stream.requests ++ [.next])) =
      stream.events[asked stream.requests]?.bind ProviderEvent.usage? := by
    rw [more, latest]
  rcases eq_or_ne stream.remaining [] with left | yields
  · rw [left] at remaining
    have ended := List.drop_eq_nil_iff.mp remaining.symm
    rw [resume_ended opts next { stream with requests := stream.requests ++ [.next] } left,
      emits]
    refine ⟨⟨fun _ => .inr ?_, nofun, nofun, nofun, nofun⟩, ?_⟩
    · show stream.events.length < asked (stream.requests ++ [.next])
      omega
    · have none : standing opts next { stream with
          requests := stream.requests ++ [.next], emitting := none, closed := true } =
          [] := by
        rw [standing, here, List.getElem?_eq_none ended]
        rfl
      rw [none]
      simp
  · obtain ⟨event, others, left⟩ := List.exists_cons_of_ne_nil yields
    rw [left] at remaining
    have there : stream.events[asked stream.requests]? = some event := by
      rw [← List.head?_drop, ← remaining]
      rfl
    have further : others = stream.events.drop (asked (stream.requests ++ [.next])) := by
      rw [more, ← List.drop_drop, ← remaining]
      rfl
    have room : asked (stream.requests ++ [.next]) ≤ stream.events.length := by
      have bound := (List.getElem?_eq_some_iff.mp there).1
      omega
    rw [there] at here
    have follows (emitting : Option PricedUsage)
        (priced : emitting = (event.usage?).map (priceUsage opts next)) :
        Stands opts next { stream with
          requests := stream.requests ++ [.next], remaining := others, emitting } := by
      refine ⟨fun closed => absurd (closed.symm.trans running) nofun, fun _ => ?_,
        fun _ => room, fun _ => further, fun _ => ?_⟩
      · simp [stays]
      · exact priced.trans (congrArg (Option.map _) here.symm)
    have now (emitting : Option PricedUsage) : standing opts next { stream with
        requests := stream.requests ++ [.next], remaining := others, emitting } =
          event.usage?.toList.map fun usage =>
            (stream.metadata, (priceUsage opts next usage).usage) := by
      rw [standing, here]
      rfl
    cases event with
    | finish usage rest =>
      rw [resume_finish opts next
          { stream with requests := stream.requests ++ [.next] } left, emits]
      refine ⟨follows _ rfl, ?_⟩
      rw [List.map_append]
      refine congrArg (_ ++ ·) ?_
      exact congrArg (List.map _) (now _).symm
    | other event =>
      rw [resume_other opts next
          { stream with requests := stream.requests ++ [.next] } left, emits]
      refine ⟨follows _ rfl, ?_⟩
      rw [List.map_append]
      refine congrArg (_ ++ ·) ?_
      exact congrArg (List.map _) (now _).symm

theorem answered (hooked : opts.onUsage = true) (stands : stream.Stands opts next)
    (request : Request) : Answered opts next stream (stream.answer opts next request) := by
  unfold answer
  by_cases closed : stream.closed = true
  · rw [if_pos closed]
    exact answered_closed stands request closed
  · rw [if_neg closed]
    cases request with
    | next => exact answered_next hooked stands (Bool.eq_false_of_not_eq_true closed)
    | leave => exact answered_leave stream

theorem stands_fresh (metadata : Option μ) (events : List (ProviderEvent ε)) :
    Stands opts next { metadata, events } :=
  ⟨nofun, fun _ => nofun, fun _ => Nat.zero_le _, fun _ => rfl, fun _ => rfl⟩

end TrackingStream

namespace Session

/-- Every usage delivered was reported, or stands with a stream. -/
structure Accounted (opts : WithCostTrackingOptions) (next : TrackedProvider)
    (session : Session ε μ) : Prop where
  stands : ∀ stream ∈ session.streams, stream.Stands opts next
  reported : (session.delivered.map (report next)).Perm (session.reports ++
    session.streams.flatMap fun stream => (stream.standing opts next).map (report next))

theorem perm_exchange {α : Type} {whole kept before part after new taken part' : List α}
    (split : whole.Perm (kept ++ (before ++ (part ++ after))))
    (exchange : part ++ new = taken ++ part') :
    (whole ++ new).Perm (kept ++ taken ++ (before ++ (part' ++ after))) := by
  simp only [← Multiset.coe_eq_coe, ← Multiset.coe_add] at split ⊢
  have parts : (part : Multiset α) + new = taken + part' := by
    rw [Multiset.coe_add, Multiset.coe_add, exchange]
  calc (whole : Multiset α) + new
      = kept + before + after + (part + new) := by
        rw [split]
        abel
    _ = kept + taken + (before + (part' + after)) := by
        rw [parts]
        abel

variable {session : Session ε μ}

theorem Accounted.answer (accounted : session.Accounted opts next) {index : Nat}
    (inside : index < session.streams.length) {out : TrackingStream ε μ × Answer ε μ}
    (answered : TrackingStream.Answered opts next session.streams[index] out) :
    Accounted opts next {
      streams := session.streams.set index out.1
      delivered := session.delivered ++
        (out.2.event.bind ProviderEvent.usage?).toList.map fun usage =>
          (session.streams[index].metadata, usage)
      reports := session.reports ++ out.2.reports } where
  stands stream among := by
    rcases List.mem_or_eq_of_mem_set among with earlier | rfl
    · exact accounted.stands stream earlier
    · exact answered.stands
  reported := by
    obtain ⟨before, after, streams, -, changed⟩ :
        ∃ before after, session.streams = before ++ session.streams[index] :: after ∧
          before.length = index ∧
          session.streams.set index out.1 = before ++ out.1 :: after :=
      List.exists_of_set inside
    have reported := accounted.reported
    rw [streams, List.flatMap_append, List.flatMap_cons] at reported
    rw [changed, List.flatMap_append, List.flatMap_cons, List.map_append]
    refine perm_exchange reported ?_
    rw [← List.map_append]
    exact answered.reported

theorem Accounted.step (hooked : opts.onUsage = true) {session : Session ε μ}
    (accounted : session.Accounted opts next) (action : Action ε μ) :
    (session.step opts next action).Accounted opts next := by
  cases action with
  | stream metadata events =>
    refine ⟨?_, ?_⟩
    · intro stream among
      rcases List.mem_append.mp among with earlier | only
      · exact accounted.stands stream earlier
      · rw [List.mem_singleton.mp only]
        exact TrackingStream.stands_fresh metadata events
    · rw [Session.step, List.flatMap_append]
      simpa [TrackingStream.standing, asked, latest] using accounted.reported
  | request index request =>
    rw [Session.step]
    cases there : session.streams[index]? with
    | none => exact accounted
    | some =>
      obtain ⟨inside, rfl⟩ := List.getElem?_eq_some_iff.mp there
      exact accounted.answer inside (TrackingStream.answered hooked
        (accounted.stands _ (List.getElem_mem inside)) request)
  | generate _ result =>
    cases result with
    | none => exact accounted
    | some =>
      refine ⟨accounted.stands, ?_⟩
      rw [Session.step, List.map_append]
      refine (List.Perm.append_right _ accounted.reported).trans ?_
      rw [emitUsage_eq hooked, List.append_assoc, List.append_assoc]
      exact List.perm_append_comm.append_left _

variable (next) in
theorem accounted_run (hooked : opts.onUsage = true) (actions : List (Action ε μ)) :
    (run opts next actions).Accounted opts next := by
  induction actions using List.reverseRecOn with
  | nil => exact ⟨nofun, .nil⟩
  | append_singleton _ action ih =>
    rw [run, List.foldl_append]
    exact ih.step hooked action

/-- All is reported when no consumer rests at a finish. -/
theorem Accounted.perm_iff (accounted : session.Accounted opts next) :
    session.reports.Perm (session.delivered.map (report next)) ↔
      ∀ stream ∈ session.streams, ¬ stream.RestsAtFinish := by
  have whole := accounted.reported
  constructor
  · intro reported stream among
    have lengths := reported.length_eq.trans whole.length_eq
    rw [List.length_append] at lengths
    have nothing := List.length_eq_zero_iff.mp (Nat.left_eq_add.mp lengths)
    have none := List.flatMap_eq_nil_iff.mp nothing stream among
    exact TrackingStream.standing_eq_nil.mp (List.map_eq_nil_iff.mp none)
  · intro rests
    have nothing : (session.streams.flatMap fun stream =>
        (stream.standing opts next).map (report next)) = [] := by
      refine List.flatMap_eq_nil_iff.mpr fun stream among => ?_
      rw [TrackingStream.standing_eq_nil.mpr (rests stream among)]
      rfl
    rw [nothing, List.append_nil] at whole
    exact whole.symm

end Session

def sumOf (infos : List (UsageInfo μ)) : CostTrackingTotals where
  callCount := infos.length
  promptTokens := (infos.map (·.promptTokens)).sum
  completionTokens := (infos.map (·.completionTokens)).sum
  totalTokens := (infos.map (·.totalTokens)).sum
  cachedReadTokens := (infos.map fun info => info.cachedReadTokens.getD 0).sum
  cacheWriteTokens := (infos.map fun info => info.cacheWriteTokens.getD 0).sum
  costUsd := (infos.map (·.costUsd)).sum

theorem sumOf_perm (perm : infos.Perm others) : sumOf infos = sumOf others := by
  simp only [sumOf, CostTrackingTotals.mk.injEq]
  exact ⟨perm.length_eq, (perm.map _).sum_eq, (perm.map _).sum_eq, (perm.map _).sum_eq,
    (perm.map _).sum_eq, (perm.map _).sum_eq, (perm.map _).sum_eq⟩

def accumulated (infos : List (UsageInfo μ)) : CostAccumulator :=
  infos.foldl CostAccumulator.onUsage .empty

def under (key : JsText) (infos : List (UsageInfo μ)) : List (UsageInfo μ) :=
  infos.filter fun info => keyOf info.providerName info.modelId = key

theorem sumOf_append (infos : List (UsageInfo μ)) (info : UsageInfo μ) :
    sumOf (infos ++ [info]) = {
      callCount := (sumOf infos).callCount + 1
      promptTokens := (sumOf infos).promptTokens + info.promptTokens
      completionTokens := (sumOf infos).completionTokens + info.completionTokens
      totalTokens := (sumOf infos).totalTokens + info.totalTokens
      cachedReadTokens := (sumOf infos).cachedReadTokens + info.cachedReadTokens.getD 0
      cacheWriteTokens := (sumOf infos).cacheWriteTokens + info.cacheWriteTokens.getD 0
      costUsd := (sumOf infos).costUsd + info.costUsd } := by
  simp [sumOf]

theorem get_accumulated (infos : List (UsageInfo μ)) (key : JsText) :
    (accumulated infos).get key =
      if under key infos = [] then none else some (sumOf (under key infos)) := by
  induction infos using List.reverseRecOn with
  | nil => rfl
  | append_singleton infos info ih =>
    rw [accumulated, List.foldl_append, ← accumulated, List.foldl_cons, List.foldl_nil,
      CostAccumulator.onUsage, OrderedMap.get_set, under, List.filter_append, ← under]
    by_cases here : keyOf info.providerName info.modelId = key
    · have known : ((accumulated infos).get key).getD {} = sumOf (under key infos) := by
        rw [ih]
        split
        · rename_i none
          rw [none]
          rfl
        · rfl
      have last : [info].filter (fun info =>
          keyOf info.providerName info.modelId = key) = [info] := by
        simp [here]
      rw [if_pos here.symm, here, known, last, if_neg (by simp), sumOf_append]
    · have last : [info].filter (fun info =>
          keyOf info.providerName info.modelId = key) = [] := by
        simp [here]
      rw [if_neg (Ne.symm here), ih, last, List.append_nil]

namespace Price

variable (price : Price)

/-- The prompt tokens that neither came from the cache nor went there. -/
def baseTokens (usage : Usage) : Nat :=
  usage.promptTokens - usage.cachedReadTokens.getD 0 - usage.cacheWriteTokens.getD 0

theorem baseTokens_add (usage : Usage) :
    baseTokens usage + usage.cachedReadTokens.getD 0 + usage.cacheWriteTokens.getD 0 =
      max usage.promptTokens
        (usage.cachedReadTokens.getD 0 + usage.cacheWriteTokens.getD 0) := by
  rw [baseTokens]
  omega

theorem cast_baseTokens (usage : Usage) : (baseTokens usage : Rat) =
    max 0 ((usage.promptTokens : Rat) - (usage.cachedReadTokens.getD 0 : Nat) -
      (usage.cacheWriteTokens.getD 0 : Nat)) := by
  rw [baseTokens]
  generalize usage.cachedReadTokens.getD 0 = read
  generalize usage.cacheWriteTokens.getD 0 = write
  rcases le_total (read + write) usage.promptTokens with enough | short
  · have split : usage.promptTokens - read - write + (read + write) =
        usage.promptTokens := by
      omega
    have whole : ((usage.promptTokens - read - write : Nat) : Rat) + (read + write) =
        usage.promptTokens := by
      exact_mod_cast split
    have rest : (usage.promptTokens : Rat) - read - write =
        (usage.promptTokens - read - write : Nat) := by
      linarith
    rw [rest]
    exact (max_eq_right (Nat.cast_nonneg _)).symm
  · have none : usage.promptTokens - read - write = 0 := by
      omega
    have few : (usage.promptTokens : Rat) ≤ read + write := by
      exact_mod_cast short
    rw [none, max_eq_left (by linarith)]
    rfl

structure Leg where
  tokens : Nat
  ratePerMtok : Rat

def Leg.amount (leg : Leg) : Rat := leg.tokens * leg.ratePerMtok / 1000000

/-- Each leg of a call at its own rate. -/
def legs (usage : Usage) : List Leg :=
  [⟨baseTokens usage, price.inputRate⟩,
    ⟨usage.cachedReadTokens.getD 0, price.cachedReadRate⟩,
    ⟨usage.cacheWriteTokens.getD 0, price.cacheWriteRate⟩,
    ⟨usage.completionTokens + usage.reasoningTokens.getD 0, price.outputRate⟩]

theorem cost_eq_legs (usage : Usage) :
    price.cost usage = ((price.legs usage).map Leg.amount).sum := by
  simp only [cost, legs, Leg.amount, ← cast_baseTokens, List.map_cons, List.map_nil,
    List.sum_cons, List.sum_nil]
  push_cast
  ring

def Nonnegative : Prop :=
  0 ≤ price.inputRate ∧ 0 ≤ price.cachedReadRate ∧ 0 ≤ price.cacheWriteRate ∧
    0 ≤ price.outputRate

theorem cost_nonneg_iff : (∀ usage, 0 ≤ price.cost usage) ↔ price.Nonnegative := by
  constructor
  · intro nonneg
    have input := nonneg ⟨1000000, 0, none, none, none, 0, none⟩
    have read := nonneg ⟨0, 0, none, some 1000000, none, 0, none⟩
    have write := nonneg ⟨0, 0, none, none, some 1000000, 0, none⟩
    have output := nonneg ⟨0, 1000000, none, none, none, 0, none⟩
    simp [cost] at input read write output
    exact ⟨input, read, write, output⟩
  · rintro ⟨input, read, write, output⟩ usage
    rw [cost]
    positivity

end Price

theorem priceUsage_priced (priced : lookup opts next = some price) (usage : Usage) :
    priceUsage opts next usage =
      ⟨{ usage with cost := some ⟨price.cost usage, ascii "USD"⟩ }, price.cost usage, true⟩ := by
  rw [priceUsage, priced]

theorem under_own (delivered : List (Option μ × Usage)) (key : JsText) :
    under key (delivered.map (report next)) =
      if keyOf next.name next.modelId = key then delivered.map (report next) else [] := by
  rw [under]
  split
  · rename_i here
    refine List.filter_eq_self.mpr fun info among => ?_
    obtain ⟨usage, -, rfl⟩ := List.mem_map.mp among
    exact decide_eq_true here
  · rename_i elsewhere
    refine List.filter_eq_nil_iff.mpr fun info among => ?_
    obtain ⟨usage, -, rfl⟩ := List.mem_map.mp among
    exact fun here => elsewhere (of_decide_eq_true here)

/-- Every usage delivered is reported once, and the totals are the sums, exactly when no
consumer of a stream rests at a finish it was given. A priced call costs the sum of its legs,
whose prompt tokens are apart, and never less than nothing exactly when no rate is. -/
theorem withCostTracking_bills_once (hooked : opts.onUsage = true)
    (actions : List (Action ε μ)) :
    (((Session.run opts next actions).reports.Perm
          ((Session.run opts next actions).delivered.map (report next)) ∧
        ∀ key, (accumulated (Session.run opts next actions).reports).get key =
          if (Session.run opts next actions).delivered = [] ∨
              keyOf next.name next.modelId ≠ key then none
          else some (sumOf ((Session.run opts next actions).delivered.map (report next)))) ↔
      ∀ stream ∈ (Session.run opts next actions).streams, ¬ stream.RestsAtFinish) ∧
    (∀ price, lookup opts next = some price →
      (∀ usage, (priceUsage opts next usage).costUsd =
          ((price.legs usage).map Price.Leg.amount).sum ∧
        (priceUsage opts next usage).usage.cost =
          some ⟨((price.legs usage).map Price.Leg.amount).sum, ascii "USD"⟩ ∧
        Price.baseTokens usage + usage.cachedReadTokens.getD 0 +
            usage.cacheWriteTokens.getD 0 =
          max usage.promptTokens
            (usage.cachedReadTokens.getD 0 + usage.cacheWriteTokens.getD 0)) ∧
      ((∀ usage, 0 ≤ (priceUsage opts next usage).costUsd) ↔ price.Nonnegative)) := by
  refine ⟨?_, fun price priced => ⟨fun usage => ?_, ?_⟩⟩
  · have reported := (Session.accounted_run next hooked actions).perm_iff
    constructor
    · exact fun billed => reported.mp billed.1
    · intro rests
      have perm := reported.mpr rests
      refine ⟨perm, fun key => ?_⟩
      have listed := perm.filter fun info =>
        keyOf info.providerName info.modelId = key
      change (under key _).Perm (under key _) at listed
      rw [under_own] at listed
      rw [get_accumulated, sumOf_perm listed]
      by_cases here : keyOf next.name next.modelId = key
      · rw [if_pos here] at listed ⊢
        have empty : under key (Session.run opts next actions).reports = [] ↔
            (Session.run opts next actions).delivered = [] := by
          rw [← List.length_eq_zero_iff, listed.length_eq, List.length_map,
            List.length_eq_zero_iff]
        simp only [empty, here, ne_eq, not_true_eq_false, or_false]
      · rw [if_neg here] at listed
        rw [if_pos (List.perm_nil.mp listed), if_pos (.inr here)]
  · rw [priceUsage_priced priced, price.cost_eq_legs]
    exact ⟨rfl, rfl, Price.baseTokens_add usage⟩
  · rw [← price.cost_nonneg_iff]
    simp only [priceUsage_priced priced]

def cached : Price where
  inputPerMtok := some 3
  outputPerMtok := some 15
  cachedReadPerMtok := some 1

def tracked : WithCostTrackingOptions where
  onUsage := true
  priceLookup := some fun _ _ => some cached

def small : TrackedProvider := ⟨ascii "openai", ascii "small"⟩

def fewTokens : Usage where
  promptTokens := 12
  completionTokens := 3
  cachedReadTokens := some 4
  totalTokens := 15

/-- A consumer that takes a stream of one finish, and then does what it does. -/
def taking (after : List Request) : List (Action Unit Unit) :=
  .stream none [.finish fewTokens ()] :: (.next :: after).map (.request 0)

theorem drained_bills : (Session.run tracked small (taking [.next])).reports.Perm
    ((Session.run tracked small (taking [.next])).delivered.map (report small)) := by
  refine ((withCostTracking_bills_once rfl (taking [.next])).1.mpr ?_).1
  intro stream among
  have only : stream ∈ [({
      metadata := none
      events := [.finish fewTokens ()]
      requests := [.next, .next]
      remaining := []
      closed := true } : TrackingStream Unit Unit)] := among
  rw [List.mem_singleton.mp only]
  rintro ⟨count, usage, rest, requested, here⟩
  cases requested
  cases here

/-- A consumer that stops right after the finish is not billed. -/
theorem stopped_unbilled : ¬ (Session.run tracked small (taking [.leave])).reports.Perm
    ((Session.run tracked small (taking [.leave])).delivered.map (report small)) := by
  intro reported
  have lengths : 0 = 1 := reported.length_eq
  cases lengths

end Graphorin.Provider.CostTracking
