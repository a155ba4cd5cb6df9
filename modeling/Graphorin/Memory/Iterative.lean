import Graphorin.Memory.Envelope
import Graphorin.Memory.Fusion
import Mathlib.Data.List.DropRight
import Mathlib.Data.Rat.Floor

namespace Graphorin.Memory

open Audit RankFusion
open Js (isWhitespace)

/-! Iterative retrieval: retrieve, grade, reformulate and retrieve again, up to a cap.  The
retriever and the grader are calls into a world that may answer anything or throw. -/

structure RetrievalGrade where
  sufficient : Bool
  confidence : Rat
  reformulation : Option JsText
  reason : Option JsText := none
  deriving DecidableEq

/-- A call that answers or throws, in a world it may change. -/
abbrev Call (σ ε α : Type) := σ → Except ε α × σ

structure IterativeRetrievalDeps (σ ε ι H : Type) where
  retrieve : JsText → Bool → Call σ ε (List H)
  snippetOf : H → JsText
  idOf : H → ι
  grader : Option (JsText → List JsText → Option (List JsText) → Call σ ε RetrievalGrade)
  fuse : Option (List (List H) → List H) := none

/-- A number of the options that is not finite is `none`. -/
structure IterativeRetrievalOptions where
  maxIterations : Option (Option Rat) := none
  forceHard : Bool := false
  maxGradeSnippets : Option Rat := none
  maxResults : Option (Option Rat) := none

structure IterativeRetrievalResult (H : Type) where
  hits : List H
  iterations : Nat
  gateHard : Bool
  sufficient : Bool
  abstained : Bool
  graded : Bool
  queries : List JsText
  deriving DecidableEq

section Interleave

variable {ι H : Type} [DecidableEq ι] (idOf : H → ι)

/-- The hits of one rank, list after list; `none` is no limit. -/
def interleaveRank (limit : Option Rat) (rank : Nat) : List (List H) → List H → List H
  | [], out => out
  | list :: lists, out =>
    match list[rank]? with
    | none => interleaveRank limit rank lists out
    | some hit =>
      if idOf hit ∈ out.map idOf then interleaveRank limit rank lists out
      else if limit.any (· ≤ ((out ++ [hit]).length : Rat)) then out ++ [hit]
      else interleaveRank limit rank lists (out ++ [hit])

def interleaveFrom (lists : List (List H)) (limit : Option Rat) : Nat → Nat → List H → List H
  | 0, _, out => out
  | ranks + 1, rank, out =>
    if limit.all ((out.length : Rat) < ·) then
      interleaveFrom lists limit ranks (rank + 1) (interleaveRank idOf limit rank lists out)
    else out

def interleave (lists : List (List H)) (limit : Option Rat) : List H :=
  let longest := (lists.map List.length).foldl max 0
  interleaveFrom idOf lists limit longest 0 []

def dedupBy (hits : List H) : List H :=
  hits.foldl (fun out hit => if idOf hit ∈ out.map idOf then out else out ++ [hit]) []

end Interleave

/-- `ranked.slice(0, maxResults)` for a limit that is not negative. -/
def cutHits {H : Type} (maxResults : Option (Option Rat)) (ranked : List H) : List H :=
  match maxResults.join with
  | some limit => if 0 ≤ limit then ranked.take ⌊limit⌋.toNat else ranked
  | none => ranked

structure RetrievalProgress (H : Type) where
  passLists : List (List H) := []
  queries : List JsText
  tried : List JsText
  passes : Nat := 1

section Loop

variable {σ ε ι H : Type} [DecidableEq ι] (toLowerCase : JsText → JsText)
  (deps : IterativeRetrievalDeps σ ε ι H) (options : IterativeRetrievalOptions)

def finalize (progress : RetrievalProgress H) (gateHard sufficient abstained graded : Bool) :
    IterativeRetrievalResult H :=
  let ranked := match deps.fuse with
    | some fuse => dedupBy deps.idOf (fuse progress.passLists)
    | none => interleave deps.idOf progress.passLists none
  { hits := cutHits options.maxResults ranked
    iterations := progress.passes
    gateHard, sufficient, abstained, graded
    queries := progress.queries }

end Loop

/-- A call of a run to the world outside, with its answer. -/
inductive Asking (ε H : Type)
  | retrieve (query : JsText) (widen : Bool) (answer : Except ε (List H))
  | grade (query : JsText) (window : List JsText) (tried : Option (List JsText))
      (answer : Except ε RetrievalGrade)

namespace Asking

variable {ε H : Type}

def retrieval : Asking ε H → Option JsText
  | retrieve query _ _ => some query
  | grade _ _ _ _ => none

def found : Asking ε H → Option (List H)
  | retrieve _ _ (.ok hits) => some hits
  | _ => none

def verdict : Asking ε H → Option RetrievalGrade
  | grade _ _ _ (.ok verdict) => some verdict
  | _ => none

def thrown : Asking ε H → Option ε
  | retrieve _ _ (.error thrown) | grade _ _ _ (.error thrown) => some thrown
  | _ => none

end Asking

/-- The queries retrieved for, one for each pass. -/
def retrievals {ε H : Type} (calls : List (Asking ε H)) : List JsText :=
  calls.filterMap Asking.retrieval

/-- The calls that lead from one world to another, each answered by the one it met. -/
inductive Asked {σ ε ι H : Type} (deps : IterativeRetrievalDeps σ ε ι H) :
    σ → List (Asking ε H) → σ → Prop
  | none (world : σ) : Asked deps world [] world
  | retrieve {before between after : σ} {calls : List (Asking ε H)} {query : JsText}
      {widen : Bool} {answer : Except ε (List H)} :
      Asked deps before calls between → deps.retrieve query widen between = (answer, after) →
        Asked deps before (calls ++ [.retrieve query widen answer]) after
  | grade {before between after : σ} {calls : List (Asking ε H)}
      {grader : JsText → List JsText → Option (List JsText) → Call σ ε RetrievalGrade}
      {query : JsText} {window : List JsText} {tried : Option (List JsText)}
      {answer : Except ε RetrievalGrade} :
      Asked deps before calls between → deps.grader = some grader →
        grader query window tried between = (answer, after) →
        Asked deps before (calls ++ [.grade query window tried answer]) after

section Merging

variable {ι H : Type} [DecidableEq ι] (idOf : H → ι)

end Merging

section Runs

variable {σ ε ι H : Type} {toLowerCase : JsText → JsText}
  {deps : IterativeRetrievalDeps σ ε ι H} {options : IterativeRetrievalOptions}

/-- Where a run stands after some calls: what it keeps is what they asked and answered. -/
structure Stands (toLowerCase : JsText → JsText) (deps : IterativeRetrievalDeps σ ε ι H)
    (start : σ) (calls : List (Asking ε H)) (progress : RetrievalProgress H) (world : σ) :
    Prop where
  asked : Asked deps start calls world
  queries : retrievals calls = progress.queries
  found : calls.filterMap Asking.found = progress.passLists
  tried : progress.tried =
    progress.queries.map fun query => toLowerCase (Js.trim isWhitespace query)
  distinct : progress.tried.Nodup
  passes : progress.passes = progress.queries.length
  answered : ∀ call ∈ calls, call.thrown = none

variable {progress : RetrievalProgress H} {start world after : σ} {calls : List (Asking ε H)}

theorem Stands.apart (reached : Stands toLowerCase deps start calls progress world) :
    ((retrievals calls).map fun query => toLowerCase (Js.trim isWhitespace query)).Nodup := by
  rw [reached.queries, ← reached.tried]
  exact reached.distinct

theorem Stands.count (reached : Stands toLowerCase deps start calls progress world) :
    (retrievals calls).length = progress.passes := by
  rw [reached.queries, reached.passes]

theorem retrievals_retrieve (calls : List (Asking ε H)) (query : JsText) (widen : Bool)
    (answer : Except ε (List H)) :
    retrievals (calls ++ [.retrieve query widen answer]) = retrievals calls ++ [query] := by
  rw [retrievals, List.filterMap_append]
  rfl

theorem retrievals_grade (calls : List (Asking ε H)) (query : JsText) (window : List JsText)
    (tried : Option (List JsText)) (answer : Except ε RetrievalGrade) :
    retrievals (calls ++ [.grade query window tried answer]) = retrievals calls := by
  rw [retrievals, List.filterMap_append]
  exact List.append_nil _

/-- A verdict changes nothing that the run keeps. -/
theorem Stands.graded (reached : Stands toLowerCase deps start calls progress world)
    {grade : JsText → List JsText → Option (List JsText) → Call σ ε RetrievalGrade}
    (grader : deps.grader = some grade) {query : JsText} {window : List JsText}
    {tried : Option (List JsText)} {verdict : RetrievalGrade}
    (answered : grade query window tried world = (.ok verdict, after)) :
    Stands toLowerCase deps start (calls ++ [.grade query window tried (.ok verdict)])
      progress after where
  asked := .grade reached.asked grader answered
  queries := by rw [retrievals_grade, reached.queries]
  found := by
    rw [List.filterMap_append, reached.found]
    exact List.append_nil _
  tried := reached.tried
  distinct := reached.distinct
  passes := reached.passes
  answered := List.forall_mem_append.mpr ⟨reached.answered, List.forall_mem_singleton.mpr rfl⟩

/-- The new name is apart from those tried before. -/
theorem Stands.fresh (reached : Stands toLowerCase deps start calls progress world)
    {next : JsText} (trimmed : Js.trim isWhitespace next = next)
    (new : toLowerCase next ∉ progress.tried) :
    (progress.queries ++ [next]).map (fun query => toLowerCase (Js.trim isWhitespace query)) =
        progress.tried ++ [toLowerCase next] ∧
      (progress.tried ++ [toLowerCase next]).Nodup := by
  refine ⟨?_, List.nodup_append.mpr ⟨reached.distinct, List.nodup_singleton _,
    fun name member other here same => ?_⟩⟩
  · rw [List.map_append, List.map_singleton, ← reached.tried, trimmed]
  · rw [List.mem_singleton.mp here] at same
    exact new (same ▸ member)

theorem Stands.next (reached : Stands toLowerCase deps start calls progress world)
    {next : JsText} (trimmed : Js.trim isWhitespace next = next)
    (new : toLowerCase next ∉ progress.tried) {widen : Bool} {hits : List H}
    (answered : deps.retrieve next widen world = (.ok hits, after)) :
    Stands toLowerCase deps start (calls ++ [.retrieve next widen (.ok hits)])
      { passLists := progress.passLists ++ [hits]
        queries := progress.queries ++ [next]
        tried := progress.tried ++ [toLowerCase next]
        passes := progress.passes + 1 } after where
  asked := .retrieve reached.asked answered
  queries := by rw [retrievals_retrieve, reached.queries]
  found := by
    rw [List.filterMap_append, reached.found]
    rfl
  tried := (reached.fresh trimmed new).1.symm
  distinct := (reached.fresh trimmed new).2
  passes := by
    rw [List.length_append, reached.passes]
    rfl
  answered := List.forall_mem_append.mpr ⟨reached.answered, List.forall_mem_singleton.mpr rfl⟩

variable [DecidableEq ι]

/-- How a loop ends that had `left` passes to go: with its last verdict, or as a call threw. -/
structure Concluded (toLowerCase : JsText → JsText) (deps : IterativeRetrievalDeps σ ε ι H)
    (options : IterativeRetrievalOptions) (start : σ) (passes left : Nat)
    (calls : List (Asking ε H)) (ended : Except ε (IterativeRetrievalResult H) × σ) :
    Prop where
  asked : Asked deps start calls ended.2
  distinct :
    ((retrievals calls).map fun query => toLowerCase (Js.trim isWhitespace query)).Nodup
  lower : passes ≤ (retrievals calls).length
  upper : (retrievals calls).length ≤ passes + left
  verdict : ∀ result, ended.1 = .ok result → ∃ progress last,
    Stands toLowerCase deps start calls progress ended.2 ∧
      (calls.filterMap Asking.verdict).getLast? = some last ∧
      result = finalize deps options progress true last.sufficient (!last.sufficient) true
  thrown : ∀ thrown, ended.1 = .error thrown →
    calls.getLast?.bind Asking.thrown = some thrown

theorem Concluded.earlier {ended : Except ε (IterativeRetrievalResult H) × σ}
    (concluded : Concluded toLowerCase deps options start (passes + 1) left calls ended) :
    Concluded toLowerCase deps options start passes (left + 1) calls ended :=
  ⟨concluded.asked, concluded.distinct, by have := concluded.lower; omega,
    by have := concluded.upper; omega, concluded.verdict, concluded.thrown⟩

end Runs

end Graphorin.Memory
