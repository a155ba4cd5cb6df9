import Graphorin.Provider.Events

namespace Graphorin.Provider

/-! `withRetry` and `withFallback` around providers that may do anything. -/

/-- How one iteration of a stream stands: it ended, it failed, or nothing more has come of
it, whether it hangs or its consumer went away. -/
inductive Ending (ε : Type)
  | ended
  | failed (error : ε)
  | pending

structure Attempt (ε : Type) where
  events : List ProviderEvent
  ending : Ending ε

/-- One call of an underlying provider's `stream`. -/
structure Call (ε : Type) where
  provider : Nat
  attempt : Attempt ε

abbrev History (ε : Type) := List (Call ε)

/-- What is answered may depend on all that was called before. -/
structure StreamEnv (ε : Type) where
  respond : History ε → Nat → Attempt ε
  aborted : History ε → Bool
  /-- What is thrown when a chain has no candidate at all. -/
  noFallback : ε

/-- `sleep` rejects when it is aborted. -/
structure RetryOptions (ε : Type) where
  maxRetries : Nat := 3
  isRetryable : History ε → ε → Bool
  sleep : History ε → Except ε Unit := fun _ => .ok ()

structure FallbackOptions (ε : Type) where
  shouldFallback : History ε → ε → Bool
  logger : History ε → Except ε Unit := fun _ => .ok ()

inductive Layers (ε : Type)
  | provider (id : Nat)
  | withRetry (options : RetryOptions ε) (next : Layers ε)
  | withFallback (options : FallbackOptions ε) (next : Layers ε)
      (fallbacks : List (Layers ε))

variable {ε : Type}

def surfacedFinish : Attempt ε := ⟨[.finish .stop zeroUsage], .ended⟩

/-- The loop of `withRetry` with so many retries left. -/
def retryingStream (env : StreamEnv ε) (options : RetryOptions ε)
    (next : History ε → Attempt ε × History ε) :
    Nat → History ε → Attempt ε × History ε
  | left, history =>
    let (attempt, history) := next history
    match attempt.ending with
    | .ended => (if attempt.events.isEmpty then surfacedFinish else attempt, history)
    | .pending => (attempt, history)
    | .failed error =>
      if env.aborted history then (attempt, history)
      else if !attempt.events.isEmpty then (attempt, history)
      else
        match left with
        | 0 => (attempt, history)
        | left + 1 =>
          if !options.isRetryable history error then (attempt, history)
          else
            match options.sleep history with
            | .error error => (⟨[], .failed error⟩, history)
            | .ok () => retryingStream env options next left history

/-- What the loop of `withFallback` does when a candidate's stream stands so; `others` goes
on with the candidates after it, and `last` says there are none. -/
def afterCandidate (env : StreamEnv ε) (options : FallbackOptions ε) (last : Bool)
    (others : History ε → Attempt ε × History ε) (tried : Attempt ε × History ε) :
    Attempt ε × History ε :=
  let (attempt, history) := tried
  match attempt.ending with
  | .ended => (attempt, history)
  | .pending => (attempt, history)
  | .failed error =>
    if env.aborted history then (attempt, history)
    else if !attempt.events.isEmpty then (attempt, history)
    else if last || !options.shouldFallback history error then (attempt, history)
    else
      match options.logger history with
      | .error error => (⟨[], .failed error⟩, history)
      | .ok () => others history

mutual
def stream (env : StreamEnv ε) : Layers ε → History ε → Attempt ε × History ε
  | .provider id, history =>
    let attempt := env.respond history id
    (attempt, history ++ [{ provider := id, attempt }])
  | .withRetry options next, history =>
    retryingStream env options (fun history => stream env next history)
      options.maxRetries history
  | .withFallback options next fallbacks, history =>
    afterCandidate env options fallbacks.isEmpty
      (fun history => fallbackStream env options fallbacks history)
      (stream env next history)

/-- The loop of `withFallback` over the candidates that are left. -/
def fallbackStream (env : StreamEnv ε) (options : FallbackOptions ε) :
    List (Layers ε) → History ε → Attempt ε × History ε
  | [], history => (⟨[], .failed env.noFallback⟩, history)
  | candidate :: rest, history =>
    afterCandidate env options rest.isEmpty
      (fun history => fallbackStream env options rest history)
      (stream env candidate history)
end

mutual
/-- The calls a stack of layers may make. -/
def Layers.bound : Layers ε → Nat
  | .provider _ => 1
  | .withRetry options next => (options.maxRetries + 1) * next.bound
  | .withFallback _ next fallbacks =>
    (fallbacks.length + 1) * max next.bound (boundAll fallbacks)

def boundAll : List (Layers ε) → Nat
  | [] => 0
  | layers :: rest => max layers.bound (boundAll rest)
end

/-- The events are those of the last call, all that were before it were event-less; or a
finish is surfaced for one that ended without any. -/
def Unspliced (calls : History ε) (delivered : Attempt ε) : Prop :=
  ∃ earlier last, calls = earlier ++ [last] ∧
    (∀ call ∈ earlier, call.attempt.events = []) ∧
    ((delivered.events = last.attempt.events ∧
        (delivered.ending = .ended → last.attempt.ending = .ended) ∧
        (delivered.ending = .pending → last.attempt.ending = .pending)) ∨
      delivered = surfacedFinish ∧ last.attempt.events = [] ∧
        last.attempt.ending = .ended)

def Serves (history : History ε) (bound : Nat) (result : Attempt ε × History ε) : Prop :=
  ∃ calls, result.2 = history ++ calls ∧ calls.length ≤ bound ∧ Unspliced calls result.1

variable {calls : History ε} {delivered : Attempt ε}

theorem Unspliced.eventless (unspliced : Unspliced calls delivered)
    (none : delivered.events = []) : ∀ call ∈ calls, call.attempt.events = [] := by
  obtain ⟨earlier, last, rfl, before, same | ⟨finish, -, -⟩⟩ := unspliced
  · intro call there
    rcases List.mem_append.mp there with there | there
    · exact before call there
    · obtain rfl := List.mem_singleton.mp there
      exact same.1.symm.trans none
  · rw [finish] at none
    cases none

theorem Unspliced.behind (unspliced : Unspliced calls delivered)
    (eventless : ∀ call ∈ first, call.attempt.events = []) :
    Unspliced (first ++ calls) delivered := by
  obtain ⟨earlier, last, rfl, before, ends⟩ := unspliced
  refine ⟨first ++ earlier, last, (List.append_assoc _ _ _).symm, fun call there => ?_, ends⟩
  rcases List.mem_append.mp there with there | there
  · exact eventless call there
  · exact before call there

theorem Unspliced.failed (unspliced : Unspliced calls delivered)
    (none : delivered.events = []) (error : ε) :
    Unspliced calls ⟨[], .failed error⟩ := by
  have eventless := unspliced.eventless none
  obtain ⟨earlier, last, rfl, before, -⟩ := unspliced
  refine ⟨earlier, last, rfl, before, .inl ⟨?_, nofun, nofun⟩⟩
  exact (eventless last (List.mem_append_right _ List.mem_cons_self)).symm

theorem Unspliced.surfaced (unspliced : Unspliced calls delivered)
    (none : delivered.events = []) (ended : delivered.ending = .ended) :
    Unspliced calls surfacedFinish := by
  have eventless := unspliced.eventless none
  obtain ⟨earlier, last, rfl, before, same | ⟨finish, -, -⟩⟩ := unspliced
  · refine ⟨earlier, last, rfl, before, .inr ⟨rfl, ?_, same.2.1 ended⟩⟩
    exact eventless last (List.mem_append_right _ List.mem_cons_self)
  · rw [finish] at none
    cases none

theorem Serves.again {history : History ε} {attempt : Attempt ε} {bound bound' : Nat}
    {history' : History ε} {result : Attempt ε × History ε}
    (first : Serves history bound (attempt, history')) (none : attempt.events = [])
    (second : Serves history' bound' result) : Serves history (bound + bound') result := by
  obtain ⟨calls, rfl, few, unspliced⟩ := first
  obtain ⟨calls', same, few', unspliced'⟩ := second
  refine ⟨calls ++ calls', by rw [same, List.append_assoc], ?_,
    unspliced'.behind (unspliced.eventless none)⟩
  rw [List.length_append]
  exact Nat.add_le_add few few'

variable {history : History ε} {bound : Nat}

theorem Serves.mono (serves : Serves history bound result) (more : bound ≤ bound') :
    Serves history bound' result := by
  obtain ⟨calls, same, few, unspliced⟩ := serves
  exact ⟨calls, same, few.trans more, unspliced⟩

theorem Serves.failed (serves : Serves history bound (attempt, history'))
    (none : attempt.events = []) (error : ε) :
    Serves history bound (⟨[], .failed error⟩, history') := by
  obtain ⟨calls, same, few, unspliced⟩ := serves
  exact ⟨calls, same, few, unspliced.failed none error⟩

theorem events_of_isEmpty {attempt : Attempt ε} (none : ¬(!attempt.events.isEmpty) = true) :
    attempt.events = [] := by
  rw [Bool.not_eq_true, Bool.not_eq_false', List.isEmpty_iff] at none
  exact none

variable {env : StreamEnv ε}

theorem retryingStream_serves {options : RetryOptions ε}
    {next : History ε → Attempt ε × History ε}
    (serves : ∀ history, Serves history bound (next history)) (left : Nat) :
    ∀ history, Serves history ((left + 1) * bound)
      (retryingStream env options next left history) := by
  induction left with
  | zero =>
    intro history
    have first := serves history
    rw [retryingStream, Nat.zero_add, Nat.one_mul]
    generalize next history = tried at first ⊢
    obtain ⟨attempt, history'⟩ := tried
    simp only
    split
    · rename_i ended
      split
      · rename_i none
        obtain ⟨calls, same, few, unspliced⟩ := first
        exact ⟨calls, same, few, unspliced.surfaced (List.isEmpty_iff.mp none) ended⟩
      · exact first
    · exact first
    · split
      · exact first
      · split
        · exact first
        · exact first
  | succ left ih =>
    intro history
    have first := serves history
    have enough : bound ≤ (left + 1 + 1) * bound := Nat.le_mul_of_pos_left _ (by omega)
    rw [retryingStream]
    generalize next history = tried at first ⊢
    obtain ⟨attempt, history'⟩ := tried
    simp only
    split
    · rename_i ended
      split
      · rename_i none
        obtain ⟨calls, same, few, unspliced⟩ := first
        exact ⟨calls, same, few.trans enough,
          unspliced.surfaced (List.isEmpty_iff.mp none) ended⟩
      · exact first.mono enough
    · exact first.mono enough
    · split
      · exact first.mono enough
      · split
        · exact first.mono enough
        · rename_i none
          split
          · exact first.mono enough
          · split
            · exact (first.failed (events_of_isEmpty none) _).mono enough
            · have sum : (left + 1 + 1) * bound = bound + (left + 1) * bound := by
                rw [Nat.succ_mul (left + 1), Nat.add_comm]
              rw [sum]
              exact first.again (events_of_isEmpty none) (ih history')

theorem afterCandidate_serves {options : FallbackOptions ε} {last : Bool}
    {others : History ε → Attempt ε × History ε} {tried : Attempt ε × History ε}
    {bound' : Nat} (first : Serves history bound tried)
    (serves : last = false → ∀ history, Serves history bound' (others history)) :
    Serves history (bound + bound') (afterCandidate env options last others tried) := by
  obtain ⟨attempt, history'⟩ := tried
  have enough : bound ≤ bound + bound' := Nat.le_add_right _ _
  rw [afterCandidate]
  split
  · exact first.mono enough
  · exact first.mono enough
  · split
    · exact first.mono enough
    · split
      · exact first.mono enough
      · rename_i none
        split
        · exact first.mono enough
        · rename_i goesOn
          split
          · exact (first.failed (events_of_isEmpty none) _).mono enough
          · rw [Bool.or_eq_true, not_or, Bool.not_eq_true] at goesOn
            exact first.again (events_of_isEmpty none) (serves goesOn.1 history')

mutual
theorem stream_serves (env : StreamEnv ε) : ∀ (layers : Layers ε) (history : History ε),
    Serves history layers.bound (stream env layers history)
  | .provider id, history =>
    ⟨[{ provider := id, attempt := env.respond history id }], rfl, Nat.le_refl 1, [],
      _, rfl, fun _ there => (nomatch there), .inl ⟨rfl, fun ended => ended,
        fun pending => pending⟩⟩
  | .withRetry options next, history => by
      rw [stream, Layers.bound]
      exact retryingStream_serves (fun history => stream_serves env next history) _ history
  | .withFallback options next fallbacks, history => by
      have more := Nat.le_max_left next.bound (boundAll fallbacks)
      have whole : next.bound + fallbacks.length * boundAll fallbacks ≤
          (fallbacks.length + 1) * max next.bound (boundAll fallbacks) := by
        rw [Nat.add_mul, Nat.one_mul, Nat.add_comm]
        exact Nat.add_le_add (Nat.mul_le_mul_left _ (Nat.le_max_right _ _)) more
      rw [stream, Layers.bound]
      refine (afterCandidate_serves (stream_serves env next history)
        fun some history => ?_).mono whole
      exact fallbackStream_serves env options fallbacks
        (fun none => by rw [none] at some; cases some) history

theorem fallbackStream_serves (env : StreamEnv ε) (options : FallbackOptions ε) :
    ∀ (candidates : List (Layers ε)), candidates ≠ [] → ∀ history : History ε,
      Serves history (candidates.length * boundAll candidates)
        (fallbackStream env options candidates history)
  | [], nonempty, _ => absurd rfl nonempty
  | candidate :: rest, _, history => by
      have whole : candidate.bound + rest.length * boundAll rest ≤
          (rest.length + 1) * max candidate.bound (boundAll rest) := by
        rw [Nat.add_mul, Nat.one_mul, Nat.add_comm]
        exact Nat.add_le_add (Nat.mul_le_mul_left _ (Nat.le_max_right _ _))
          (Nat.le_max_left _ _)
      rw [fallbackStream]
      refine (afterCandidate_serves (stream_serves env candidate history)
        fun some history => ?_).mono whole
      exact fallbackStream_serves env options rest
        (fun none => by rw [none] at some; cases some) history
end

/-- However the layers are nested and whatever the providers do: what is delivered is of one
call, or a finish surfaced where nothing came; no call is made after one whose events were
delivered; and there are no more calls than the layers allow together. -/
theorem layers_never_splice (env : StreamEnv ε) (layers : Layers ε) :
    ∃ calls, (stream env layers []).2 = calls ∧ calls.length ≤ layers.bound ∧
      Unspliced calls (stream env layers []).1 ∧
      ∀ before call after, calls = before ++ call :: after → call.attempt.events ≠ [] →
        after = [] := by
  obtain ⟨calls, same, few, unspliced⟩ := stream_serves env layers []
  refine ⟨calls, same, few, unspliced, fun before call after split some => ?_⟩
  obtain ⟨earlier, last, rfl, eventless, -⟩ := unspliced
  rcases List.eq_nil_or_concat after with none | ⟨others, final, rfl⟩
  · exact none
  · rw [List.concat_eq_append, ← List.cons_append, ← List.append_assoc] at split
    have same := List.append_inj_left' split rfl
    exact absurd (eventless call (same ▸ List.mem_append_right _ List.mem_cons_self)) some

end Graphorin.Provider
