import Graphorin.Provider.Splitting
import Graphorin.RunState.PlainHost

namespace Graphorin.Provider

open Audit RunState Lib

/-! The stream of a message and the message itself. -/

section

variable {host : Host} {providerName modelId : JsText} {message : OpenAIMessage}
  {chunks : List OpenAIChunk}

theorem stream_eq : streamOpenAIShaped host providerName modelId chunks =
      .streamStart providerName modelId :: (takeChunks host {} chunks).2 ++
        [.finish (takeChunks host {} chunks).1.finishReason
          ((takeChunks host {} chunks).1.usage.getD zeroUsage)] := rfl

theorem starts_of_stream :
    startsIn (streamOpenAIShaped host providerName modelId chunks) =
      startsIn (takeFragments .empty (fragmentsOf chunks)).2 := by
  rw [stream_eq, startsIn_append]
  exact (List.append_nil _).trans (reads_chunks host {} chunks).starts

theorem deltas_of_stream :
    deltasIn (streamOpenAIShaped host providerName modelId chunks) =
      deltasIn (takeFragments .empty (fragmentsOf chunks)).2 := by
  rw [stream_eq, deltasIn_append]
  exact (List.append_nil _).trans (reads_chunks host {} chunks).deltas

theorem ends_of_stream :
    endsIn (streamOpenAIShaped host providerName modelId chunks) =
      endsIn (takeChunks host {} chunks).2 := by
  rw [stream_eq, endsIn_append]
  exact List.append_nil _

theorem finished_of_stream :
    (collect (streamOpenAIShaped host providerName modelId chunks)).finished =
      some ((takeChunks host {} chunks).1.finishReason,
        (takeChunks host {} chunks).1.usage.getD zeroUsage) := by
  rw [stream_eq, collect, List.foldl_append]
  rfl

theorem text_of_stream (host : Host) (providerName modelId : JsText)
    (chunks : List OpenAIChunk) :
    (collect (streamOpenAIShaped host providerName modelId chunks)).textBuffer =
      (contentsOf chunks).flatten := by
  rw [stream_eq, collect, textBuffer_collected, textsIn_append, List.flatten_append]
  exact (List.append_nil _).trans (reads_chunks host {} chunks).texts

/-- The ends come together, with the chunk that gives the reason. -/
theorem ends_of_closed (host : Host) (closed : ClosedWith reason chunks) :
    (takeChunks host {} chunks).1.finishReason = mapFinishReason reason ∧
      ∃ shown later, startsIn shown = startsIn (takeFragments .empty (fragmentsOf chunks)).2 ∧
        endsIn shown = [] ∧ endsIn later = [] ∧ (takeChunks host {} chunks).2 =
          shown ++ (takeFragments .empty (fragmentsOf chunks)).1.entries.map (endEvent host) ++
            later := by
  obtain ⟨before, closing, after, choice, rfl, chosen, rfl, given, noneBefore, noneAfter,
    silent⟩ := closed
  obtain ⟨reason, given⟩ := Option.ne_none_iff_exists'.mp given
  have first := reads_chunks host {} before
  have fragments : fragmentsOf (before ++ closing :: after) =
      fragmentsOf before ++ choice.delta.tool_calls := by
    rw [fragmentsOf, List.flatMap_append, List.flatMap_cons, ← fragmentsOf, ← fragmentsOf, silent,
      List.append_nil, OpenAIChunk.fragments, chosen]
    rfl
  have last := reads_chunks host
    (takeChunk host (takeChunks host {} before).1 closing).1 after
  have taken := takeChunks_append host {} before (closing :: after)
  rw [takeChunks] at taken
  have closes : takeChunk host (takeChunks host {} before).1 closing =
      ({ finishReason := mapFinishReason (some reason)
         usage := takeUsage (takeChunks host {} before).1.usage closing.usage
         toolCallBuffer := (takeFragments .empty
           (fragmentsOf (before ++ closing :: after))).1 },
        textEvents choice.delta.content ++ reasoningEvents choice.delta.reasoning_content ++
          (takeFragments (takeChunks host {} before).1.toolCallBuffer
            choice.delta.tool_calls).2 ++
          (takeFragments .empty (fragmentsOf (before ++ closing :: after))).1.entries.map
            (endEvent host)) := by
    rw [fragments, takeFragments_append]
    simp only [takeChunk, chosen, given, first.buffer]
  refine ⟨?_, (takeChunks host {} before).2 ++ (textEvents choice.delta.content ++
    reasoningEvents choice.delta.reasoning_content ++
      (takeFragments (takeChunks host {} before).1.toolCallBuffer choice.delta.tool_calls).2),
    (takeChunks host (takeChunk host (takeChunks host {} before).1 closing).1 after).2,
    ?_, ?_, (last.open_ noneAfter).1, ?_⟩
  · rw [taken]
    show (takeChunks host (takeChunk host _ closing).1 after).1.finishReason = _
    rw [(last.open_ noneAfter).2, closes, given]
  · rw [fragments, takeFragments_append, startsIn_append, startsIn_append, startsIn_append,
      startsIn_append, startsIn_text, startsIn_reasoning, first.starts, first.buffer]
    rfl
  · rw [endsIn_append, endsIn_append, endsIn_append, (first.open_ noneBefore).1, endsIn_text,
      endsIn_reasoning, endsIn_takeFragments]
    rfl
  · rw [taken]
    show _ ++ ((takeChunk host _ closing).2 ++ _) = _
    rw [closes]
    simp only [List.append_assoc]

theorem endsIn_calls (calls : List MessageToolCall) :
    endsIn (calls.map fun call => ProviderEvent.toolCallEnd call.id
      (parseFinalArgs host call.arguments)) =
      calls.map fun call => (call.id, parseFinalArgs host call.arguments) := by
  induction calls with
  | nil => rfl
  | cons call rest ih => exact congrArg (_ :: ·) ih

theorem toolCalls_generated :
    (generateOpenAIShaped host message).toolCalls.getD [] =
      message.calls.map (toolCallOf host) := by
  rw [generateOpenAIShaped, OpenAIMessage.calls]
  cases message.tool_calls <;> rfl

/-- Split with a finish reason, calls that have an id and a name come back whole. -/
theorem calls_of_closed (host : Host) (providerName modelId : JsText)
    (splits : Splits message chunks)
    (distinct : (message.calls.map (·.id)).Nodup)
    (named : ∀ call ∈ message.calls, call.id ≠ [] ∧ call.name ≠ [])
    (closed : ClosedWith message.finish_reason chunks) :
    let order := (opened [] (fragmentsOf chunks)).filterMap fun index => message.calls[index]?
    order.Perm message.calls ∧
      endsIn (streamOpenAIShaped host providerName modelId chunks) =
        order.map (fun call => (call.id, parseFinalArgs host call.arguments)) ∧
      (collect (streamOpenAIShaped host providerName modelId chunks)).finalCalls =
        order.map (toolCallOf host) := by
  intro order
  have staged : Staged message.calls .empty (fragmentsOf chunks) :=
    ⟨splits.indexed, fun index call known => .waiting (splits.calls index call known)⟩
  have perm : order.Perm message.calls :=
    ((opened_perm staged distinct named).filterMap _).trans (.of_eq (read_in_range _))
  obtain ⟨-, shown, later, starts, quiet, quiet', taken⟩ := ends_of_closed host closed
  rw [entries_of_staged staged distinct named host] at taken
  refine ⟨perm, ?_, ?_⟩
  · rw [ends_of_stream, taken, endsIn_append, endsIn_append, quiet, quiet', endsIn_calls,
      List.nil_append, List.append_nil]
  · have known : ∀ call ∈ order,
        (((ProviderEvent.streamStart providerName modelId :: shown).foldl handleProviderEvent
          {}).calls.find? fun known => known.1 == call.id) = some (call.id, call.name) := by
      intro call member
      obtain ⟨index, inside⟩ := List.mem_iff_getElem?.mp (perm.mem_iff.mp member)
      rw [calls_collected, List.append_nil]
      apply found_of_started
      refine (congrArg (ofCall call.id) starts).trans ?_
      exact (shown_of_staged staged distinct named inside).1
    rw [stream_eq, taken, collect, List.cons_append, List.append_assoc, List.append_assoc,
      ← List.cons_append, List.foldl_append, List.foldl_append, finalCalls_without_end]
    · have none_yet : endsIn (ProviderEvent.streamStart providerName modelId :: shown) = [] :=
        quiet
      rw [finalCalls_of_ends host _ known, finalCalls_without_end none_yet]
      rfl
    · rw [endsIn_append, quiet']
      rfl

end

/-- Streaming a message gives what it gives in one piece exactly when its calls have ids and
names, some chunk gives the finish reason and no null usage follows the usage. -/
theorem stream_agrees_with_generate (host : Host) (providerName modelId : JsText)
    {message : OpenAIMessage} {chunks : List OpenAIChunk} (splits : Splits message chunks)
    (distinct : (message.calls.map (·.id)).Nodup) :
    Agrees host message chunks (streamOpenAIShaped host providerName modelId chunks) ↔
      Complete message chunks := by
  have usage := (reads_chunks host {} chunks).usage
  constructor
  · intro agrees
    have finished := agrees.finished
    rw [finished_of_stream, Option.some.injEq, Prod.mk.injEq] at finished
    refine ⟨?_, ?_, ?_⟩
    · intro call member
      have starts := agrees.starts call member
      rw [starts_of_stream] at starts
      have start : call.name ∈ ofCall call.id
          (startsIn (takeFragments .empty (fragmentsOf chunks)).2) := by
        rw [starts]
        exact List.mem_singleton.mpr rfl
      exact named_of_start (mem_ofCall.mp start)
    · by_cases open_ : reasonsOf chunks = []
      · right
        obtain ⟨quiet, reason⟩ := (reads_chunks host {} chunks).open_ open_
        constructor
        · apply List.eq_nil_iff_forall_not_mem.mpr
          intro call member
          have ends := agrees.ends call member
          rw [ends_of_stream, quiet] at ends
          cases ends
        · exact (reason.symm.trans finished.1).symm
      · exact .inl open_
    · rw [← usage_left splits.usage]
      exact (congrArg (Option.getD · zeroUsage) usage).symm.trans finished.2
  · intro complete
    have staged : Staged message.calls .empty (fragmentsOf chunks) :=
      ⟨splits.indexed, fun index call known => .waiting (splits.calls index call known)⟩
    have counted := (usage_left splits.usage).mpr complete.counted
    rw [show (usagesOf chunks).foldl takeUsage none = _ from usage.symm] at counted
    have told : ∀ call ∈ message.calls,
        ofCall call.id (startsIn (streamOpenAIShaped host providerName modelId chunks)) =
            [call.name] ∧
          (ofCall call.id
            (deltasIn (streamOpenAIShaped host providerName modelId chunks))).flatten =
            call.arguments := by
      intro call member
      obtain ⟨index, known⟩ := List.mem_iff_getElem?.mp member
      obtain ⟨starts, deltas, -⟩ := shown_of_staged staged distinct complete.named known
      rw [starts_of_stream, deltas_of_stream]
      exact ⟨starts, deltas⟩
    have text := splits.text
    rw [← text_of_stream host providerName modelId chunks] at text
    rcases splits.reason with open_ | closed
    · obtain ⟨none, reason⟩ := complete.closed.resolve_left (not_not.mpr open_)
      obtain ⟨quiet, stop⟩ := (reads_chunks host {} chunks).open_ open_
      have finalCalls : (collect (streamOpenAIShaped host providerName modelId
          chunks)).finalCalls = [] := by
        rw [collect, finalCalls_without_end]
        rw [ends_of_stream, quiet]
      refine ⟨fun call member => (told call member).1, fun call member => (told call member).2,
        ?_, text, ?_, ?_, ?_⟩
      · rw [none]
        exact nofun
      · rw [toolCalls_generated, none, finalCalls]
        exact .nil
      · intro _
        rw [toolCalls_generated, none, finalCalls]
        rfl
      · rw [finished_of_stream, stop, counted]
        show some (FinishReason.stop, _) = some (mapFinishReason message.finish_reason, _)
        rw [reason]
        rfl
    · obtain ⟨perm, ends, finalCalls⟩ := calls_of_closed host providerName modelId
        splits distinct complete.named closed
      refine ⟨fun call member => (told call member).1, fun call member => (told call member).2,
        ?_, text, ?_, ?_, ?_⟩
      · intro call member
        rw [ends]
        apply ofCall_of_nodup
        · rw [List.map_map]
          exact (perm.map (·.id)).nodup_iff.mpr distinct
        · exact List.mem_map.mpr ⟨call, perm.mem_iff.mpr member, rfl⟩
      · rw [toolCalls_generated, finalCalls]
        exact perm.map _
      · intro inOrder
        rw [toolCalls_generated, finalCalls, inOrder, read_in_range]
      · rw [finished_of_stream, (ends_of_closed host closed).1, counted]
        rfl

section Example

private def weather : MessageToolCall :=
  { id := ascii "call_1", name := ascii "weather", arguments := ascii "\"Oslo\"" }

private def answer : OpenAIMessage :=
  { tool_calls := some [weather], finish_reason := some (ascii "tool_calls") }

private def opening : OpenAIChunk :=
  { choice := some { delta := { tool_calls :=
      [{ index := some 0, id := some (ascii "call_1"), name := some (ascii "weather")
         arguments := some (ascii "\"Os") }] } } }

private def going : OpenAIChunk :=
  { choice := some { delta := { tool_calls :=
      [{ index := some 0, arguments := some (ascii "lo\"") }] } } }

private def closing : OpenAIChunk :=
  { choice := some { finish_reason := some (ascii "tool_calls") } }

private theorem answer_split : Splits answer [opening, going, closing] where
  text := rfl
  indexed := by
    intro fragment member
    have index : fragment.index = some 0 := by
      revert member
      revert fragment
      decide
    exact ⟨0, index, by decide⟩
  calls := by
    intro index call known
    cases index with
    | zero =>
      cases known
      exact ⟨rfl, rfl, by decide, by decide⟩
    | succ => cases known
  reason := .inr ⟨[opening, going], closing, [], _, rfl, rfl, rfl, by decide, rfl, rfl, rfl⟩
  usage := rfl

theorem split_call_comes_back : Agrees plainHost answer [opening, going, closing]
      (streamOpenAIShaped plainHost (ascii "local") (ascii "small")
        [opening, going, closing]) :=
  (stream_agrees_with_generate plainHost _ _ answer_split (by decide)).mpr
    ⟨by decide, .inl (by decide), .inl rfl⟩

/-- Without a finish reason the call never ends. -/
theorem unfinished_call_is_lost :
    Splits answer [opening, going] ∧ (answer.calls.map (·.id)).Nodup ∧
      ¬ Agrees plainHost answer [opening, going]
        (streamOpenAIShaped plainHost (ascii "local") (ascii "small") [opening, going]) := by
  refine ⟨⟨rfl, answer_split.indexed, answer_split.calls, .inl rfl, rfl⟩, by decide, ?_⟩
  intro agrees
  have ends := agrees.ends weather (by decide)
  have none : ofCall weather.id (endsIn (streamOpenAIShaped plainHost (ascii "local")
      (ascii "small") [opening, going])) = [] := rfl
  rw [none] at ends
  cases ends

end Example

end Graphorin.Provider
