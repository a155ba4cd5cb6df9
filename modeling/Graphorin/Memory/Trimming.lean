import Graphorin.Memory.Summaries
import Graphorin.Lib.Results
import Mathlib.Data.List.Forall2

namespace Graphorin.Memory.Compaction

open Lib Audit
open Js (Number)

/-! What a clearing does to each message. -/

structure Replaces (options : ClearToolResultsOptions) (counter : ContextTokenCounter)
    (messages : List Message) (replacement : Replacement) : Prop where
  among : replacement.result ∈ clearable options messages
  counted : replacement.info =
    (replacementFor options counter messages replacement.result).info
  stands : messages[replacement.result.index]? =
    some (.tool replacement.result.toolCallId replacement.result.content)
  reads : (options.externalize = none ∧
      replacement.placeholder =
        (options.placeholder.getD defaultPlaceholder) replacement.info) ∨
    ∃ externalize handle, options.externalize = some externalize ∧
      externalize replacement.result.index (renderContent replacement.result.content)
        replacement.info = .ok handle ∧
      replacement.placeholder =
        handlePlaceholder replacement.info handle options.readResultToolName

variable {messages : List Message} {result : ToolResult}

theorem mem_toolResults (there : result ∈ toolResults messages) :
    messages[result.index]? = some (.tool result.toolCallId result.content) := by
  rw [toolResults, List.mem_filterMap] at there
  obtain ⟨⟨message, index⟩, stands, same⟩ := there
  have stands' := List.mem_zipIdx_iff_getElem?.mp stands
  cases message with
  | tool =>
    simp only at same
    split at same
    · cases same
    · cases same
      exact stands'
  | system => cases same
  | user => cases same
  | assistant => cases same

variable {options : ClearToolResultsOptions}

theorem mem_clearable (there : result ∈ clearable options messages) :
    result ∈ toolResults messages := by
  rw [clearable] at there
  exact List.mem_of_mem_take (List.mem_filter.mp there).1

variable {counter : ContextTokenCounter}

theorem replaces_of_externalized {replacement : Replacement}
    (there : result ∈ clearable options messages)
    (externalized : externalizeResult options (replacementFor options counter messages result) =
      .ok replacement)
    : Replaces options counter messages replacement := by
  have stands := mem_toolResults (mem_clearable there)
  unfold externalizeResult at externalized
  cases spill : options.externalize with
  | none =>
    rw [spill] at externalized
    cases externalized
    exact ⟨there, rfl, stands, .inl ⟨spill, rfl⟩⟩
  | some externalize =>
    simp only [spill] at externalized
    obtain ⟨handle, answered, rfl⟩ := ok_of_map externalized
    exact ⟨there, rfl, stands, .inr ⟨externalize, handle, spill, answered, rfl⟩⟩

def clearedMessage (options : ClearToolResultsOptions) (replacements : List Replacement)
    (index : Nat) (message : Message) : Message :=
  if options.clearToolInputs then
    elideInputs (replacements.map (·.result.toolCallId))
      (replaceResult replacements index message)
  else replaceResult replacements index message

/-- There is something to clear, and it saves enough. -/
def Commits (options : ClearToolResultsOptions) (counter : ContextTokenCounter)
    (messages : List Message) : Prop :=
  let replacements := (clearable options messages).map
    (replacementFor options counter messages)
  ¬(replacements = [] ∨ (((replacements.map (Replacement.saves counter)).sum : Nat) : Int) <
    options.clearAtLeast.getD 0)

theorem clearOldToolResults_cases {outcome : ClearToolResultsOutcome}
    (cleared : clearOldToolResults options counter messages = .ok outcome) :
    (outcome.messages = messages ∧ outcome.clearedIndices = []) ∨
      Commits options counter messages ∧ ∃ replacements,
        (∀ replacement ∈ replacements, Replaces options counter messages replacement) ∧
        outcome.clearedIndices = replacements.map (·.result.index) ∧
        outcome.messages = messages.mapIdx (clearedMessage options replacements) := by
  unfold clearOldToolResults at cleared
  simp only at cleared
  split at cleared
  · cases cleared
    exact .inl ⟨rfl, rfl⟩
  · rename_i commits
    obtain ⟨replacements, externalized, rfl⟩ := ok_of_map cleared
    refine .inr ⟨commits, replacements, fun replacement there => ?_, rfl, ?_⟩
    · obtain ⟨before, here, same⟩ := mem_of_mapM externalized there
      obtain ⟨result, known, rfl⟩ := List.mem_map.mp here
      exact replaces_of_externalized known same
    · apply List.ext_getElem?
      intro index
      by_cases inputs : options.clearToolInputs = true
      · simp only [if_pos inputs, List.getElem?_map, List.getElem?_mapIdx, Option.map_map]
        congr 1
        funext message
        exact (if_pos inputs).symm
      · simp only [if_neg inputs, List.getElem?_mapIdx]
        congr 1
        funext message
        exact (if_neg inputs).symm

def Message.turn : Message → Turn JsText
  | .tool toolCallId _ => .answers toolCallId
  | message => .announces (message.calls.map (·.toolCallId))

abbrev turns (messages : List Message) : List (Turn JsText) := messages.map Message.turn

theorem turn_isAnswer (message : Message) : message.turn.isAnswer = message.isTool := by
  cases message <;> rfl

theorem turns_isAnswer (messages : List Message) (index : Nat) :
    ((turns messages)[index]?).any Turn.isAnswer = (messages[index]?).any Message.isTool := by
  rw [List.getElem?_map]
  cases messages[index]? with
  | none => rfl
  | some message => exact turn_isAnswer message

inductive Kept : CompactionStrategy → Message → Message → Prop
  | same {strategy : CompactionStrategy} {message : Message} : Kept strategy message message
  | result {strategy : ClearOldToolResults} {toolCallId : JsText} {content : Content}
      {placeholder : Text} : isAlreadyCleared (.plain placeholder) = true →
        Kept (.clearOldToolResults strategy) (.tool toolCallId content)
          (.tool toolCallId (.plain placeholder))
  | inputs {strategy : ClearOldToolResults} {content : Content}
      {toolCalls : List ToolCall} {agentId : Option JsText} {cleared : List JsText} :
      strategy.options.clearToolInputs = true →
        Kept (.clearOldToolResults strategy) (.assistant content (some toolCalls) agentId)
          (.assistant content (some (toolCalls.map (elideCall cleared))) agentId)

@[simp] theorem elideCall_toolCallId (cleared : List JsText) (call : ToolCall) :
    (elideCall cleared call).toolCallId = call.toolCallId := by
  rw [elideCall]
  split <;> rfl

variable {strategy : CompactionStrategy} {message : Message}

theorem Kept.turn_eq {message' : Message} (kept : Kept strategy message message') :
    message'.turn = message.turn := by
  cases kept with
  | same => rfl
  | result => rfl
  | @inputs strategy content toolCalls agentId cleared asked =>
    have ids : (toolCalls.map (elideCall cleared)).map (·.toolCallId) =
        toolCalls.map (·.toolCallId) := by
      rw [List.map_map]
      exact List.map_congr_left fun call _ => elideCall_toolCallId cleared call
    exact congrArg Turn.announces ids

theorem Kept.user_eq {message' : Message} (kept : Kept strategy message message') :
    message'.isUser = message.isUser := by
  cases kept <;> rfl

theorem marked_fresh (rest : JsText) (more : Text) :
    isAlreadyCleared (.plain (fresh (CLEARED_TOOL_RESULT_MARKER ++ rest) ++ more)) = true := by
  refine startsWith_iff.mpr ⟨fresh CLEARED_TOOL_RESULT_MARKER, fresh rest ++ more, ?_, ?_⟩
  · rw [fresh, List.map_append, List.append_assoc]
    rfl
  · rw [fresh, List.map_map]
    exact List.map_id _

theorem marked_defaultPlaceholder (info : ClearInfo) :
    isAlreadyCleared (.plain (defaultPlaceholder info)) = true := by
  have marked := marked_fresh (ascii " · " ++ info.toolName.getD (ascii "tool") ++
    ascii " · " ++ decimal info.clearedTokens ++
    ascii " tokens elided · re-run the tool if needed]") []
  rw [List.append_nil] at marked
  rw [defaultPlaceholder]
  simp only [List.append_assoc] at marked ⊢
  exact marked

theorem marked_handlePlaceholder (info : ClearInfo) (handle : Handle)
    (readToolName : Option (Option JsText)) :
    isAlreadyCleared (.plain (handlePlaceholder info handle readToolName)) = true := by
  unfold handlePlaceholder
  simp only [List.append_assoc]
  exact marked_fresh _ _

theorem elideInputs_tool (cleared : List JsText) (toolCallId : JsText) (content : Content) :
    elideInputs cleared (.tool toolCallId content) = .tool toolCallId content := rfl

theorem replaceResult_cases {replacements : List Replacement}
    (replaces : ∀ replacement ∈ replacements, Replaces options counter messages replacement)
    {index : Nat} (stands : messages[index]? = some message) :
    replaceResult replacements index message = message ∨
      ∃ replacement ∈ replacements, Replaces options counter messages replacement ∧
        message = .tool replacement.result.toolCallId replacement.result.content ∧
        replaceResult replacements index message =
          .tool replacement.result.toolCallId (.plain replacement.placeholder) := by
  unfold replaceResult
  split
  · rename_i replacement found
    have there := List.mem_of_find?_eq_some found
    have here := List.find?_some found
    have replaced := replaces replacement there
    have same := replaced.stands
    rw [beq_iff_eq.mp here, stands] at same
    exact .inr ⟨replacement, there, replaced, Option.some.inj same, rfl⟩
  · exact .inl rfl

theorem kept_clearedMessage {strategy : ClearOldToolResults}
    {replacements : List Replacement}
    (replaces : ∀ replacement ∈ replacements,
      Replaces { strategy.options with placeholder := none } counter messages replacement)
    {index : Nat} (stands : messages[index]? = some message) :
    Kept (.clearOldToolResults strategy) message
      (clearedMessage { strategy.options with placeholder := none } replacements index
        message) := by
  unfold clearedMessage
  rcases replaceResult_cases replaces stands with
    same | ⟨replacement, -, replaced, rfl, same⟩
  · rw [same]
    split
    · rename_i asked
      cases message with
      | assistant _ toolCalls =>
        cases toolCalls with
        | none => exact .same
        | some => exact .inputs asked
      | system => exact .same
      | user => exact .same
      | tool => exact .same
    · exact .same
  · rw [same, elideInputs_tool, ite_self]
    apply Kept.result
    rcases replaced.reads with ⟨-, reads⟩ | ⟨externalize, handle, -, -, reads⟩
    · rw [reads]
      exact marked_defaultPlaceholder _
    · rw [reads]
      exact marked_handlePlaceholder _ _ _

theorem forall₂_mapIdx {α β : Type} {related : α → β → Prop} {items : List α}
    {f : Nat → α → β}
    (each : ∀ index item, items[index]? = some item → related item (f index item)) :
    List.Forall₂ related items (items.mapIdx f) := by
  induction items generalizing f with
  | nil => exact .nil
  | cons item _ ih =>
    rw [List.mapIdx_cons]
    refine .cons (each 0 item rfl) (ih fun index other there => ?_)
    exact each (index + 1) other there

theorem kept_of_cleared {strategy : ClearOldToolResults} {outcome : ClearToolResultsOutcome}
    (cleared : clearOldToolResults { strategy.options with placeholder :=
      none } counter messages = .ok outcome) :
    List.Forall₂ (Kept (.clearOldToolResults strategy)) messages outcome.messages := by
  rcases clearOldToolResults_cases cleared with
    ⟨same, -⟩ | ⟨-, replacements, replaces, -, same⟩
  · rw [same]
    exact List.forall₂_same.mpr fun _ _ => .same
  · rw [same]
    exact forall₂_mapIdx fun index message stands => kept_clearedMessage replaces stands

variable {messages' : List Message}

theorem turns_of_kept (kept : List.Forall₂ (Kept strategy) messages messages') :
    turns messages' = turns messages := by
  induction kept with
  | nil => rfl
  | cons head _ ih => exact congrArg₂ List.cons head.turn_eq ih

theorem users_of_kept (kept : List.Forall₂ (Kept strategy) messages messages') :
    messages'.filter Message.isUser = messages.filter Message.isUser := by
  induction kept with
  | nil => rfl
  | @cons message message' _ _ head _ ih =>
    rw [List.filter_cons, List.filter_cons, head.user_eq, ih]
    split
    · rename_i user
      cases head with
      | same => rfl
      | result => cases user
      | inputs => cases user
    · rfl

def cut (env : CompactionEnv) (strategy : SummarizeOldPreserveRecent)
    (messages : List Message) : Nat :=
  (requestedOlder env strategy messages).place messages.length

structure Snapped (env : CompactionEnv) (strategy : SummarizeOldPreserveRecent)
    (messages : List Message) (boundary : Nat) : Prop where
  within : boundary ≤ cut env strategy messages
  least : ∀ index, boundary < index → index ≤ cut env strategy messages →
    (messages[index]?).any Message.isTool = true
  starts : (messages[boundary]?).any Message.isTool = false

theorem snapOlderCount_spec (messages : List Message)
    (first : (messages[0]?).any Message.isTool = false) (asked : Nat) :
    snapOlderCount messages asked ≤ asked ∧
      (∀ index, snapOlderCount messages asked < index → index ≤ asked →
        (messages[index]?).any Message.isTool = true) ∧
      (messages[snapOlderCount messages asked]?).any Message.isTool = false := by
  induction asked with
  | zero => exact ⟨Nat.le_refl 0, fun index above below => by omega, first⟩
  | succ asked ih =>
    rw [snapOlderCount]
    split
    · rename_i tool
      refine ⟨Nat.le_succ_of_le ih.1, fun index above below => ?_, ih.2.2⟩
      by_cases last : index = asked + 1
      · rw [last]
        exact tool
      · exact ih.2.1 index above (by omega)
    · rename_i other
      refine ⟨Nat.le_refl _, fun index above below => by omega, ?_⟩
      exact Bool.eq_false_of_not_eq_true other

theorem first_of_wellFormed (wellFormed : Transcript.WellFormed [] (turns messages)) :
    (messages[0]?).any Message.isTool = false := by
  cases messages with
  | nil => rfl
  | cons message =>
    cases message with
    | tool => cases wellFormed.1
    | system => rfl
    | user => rfl
    | assistant => rfl

/-- As many older messages are asked for as an index can say, or the cut is not before a
tool message. -/
def CleanCut (env : CompactionEnv) (strategy : SummarizeOldPreserveRecent)
    (messages : List Message) : Prop :=
  (requestedOlder env strategy messages).isWhole = true ∨
    (messages[cut env strategy messages]?).any Message.isTool = false

theorem snapped {env : CompactionEnv} {strategy : SummarizeOldPreserveRecent}
    (first : (messages[0]?).any Message.isTool = false)
    (clean : CleanCut env strategy messages) :
    Snapped env strategy messages (olderCountOf env strategy messages) := by
  unfold olderCountOf
  simp only
  split
  · have spec := snapOlderCount_spec messages first (cut env strategy messages)
    exact ⟨spec.1, spec.2.1, spec.2.2⟩
  · rename_i broken
    exact ⟨Nat.le_refl _, fun index above below => absurd below (Nat.not_le.mpr above),
      clean.resolve_left broken⟩

theorem olderCountOf_of_not_clean {env : CompactionEnv}
    {strategy : SummarizeOldPreserveRecent} (unclean : ¬ CleanCut env strategy messages) :
    ∃ toolCallId content,
      messages[olderCountOf env strategy messages]? = some (.tool toolCallId content) := by
  rw [CleanCut, not_or, Bool.not_eq_false] at unclean
  obtain ⟨broken, tool⟩ := unclean
  have here : olderCountOf env strategy messages = cut env strategy messages := if_neg broken
  rw [here]
  cases found : messages[cut env strategy messages]? with
  | none =>
    rw [found] at tool
    cases tool
  | some message =>
    rw [found] at tool
    cases message with
    | tool toolCallId content => exact ⟨toolCallId, content, rfl⟩
    | system => cases tool
    | user => cases tool
    | assistant => cases tool

def carriedUsers (preserveUserMessages : Number) (older : List Message) : List Message :=
  let users := older.filter Message.isUser
  let last := users.drop (users.length - preserveUserMessages.share users.length)
  if last.length = older.length then [] else last

variable (preserveUserMessages : Number)

theorem carriedUsers_nil : carriedUsers preserveUserMessages [] = [] := by
  simp [carriedUsers]

theorem markCarried_spec (older : List Message) :
    (markCarried preserveUserMessages older).1.length = older.length ∧
      (markCarried preserveUserMessages older).2 =
        preserveUserMessages.share (older.filter Message.isUser).length ∧
      ((older.zip (markCarried preserveUserMessages older).1).filterMap
        fun (message, carried) => if carried then some message else none) =
          (older.filter Message.isUser).drop ((older.filter Message.isUser).length -
            preserveUserMessages.share (older.filter Message.isUser).length) := by
  induction older with
  | nil => exact ⟨rfl, (Nat.le_zero.mp (Number.share_le 0 _)).symm, List.drop_nil.symm⟩
  | cons message rest ih =>
    obtain ⟨marks, size, carried⟩ := ih
    rw [markCarried]
    simp only
    by_cases user : message.isUser = true
    · have users : (message :: rest).filter Message.isUser =
          message :: rest.filter Message.isUser := List.filter_cons_of_pos user
      have within := preserveUserMessages.share_le (rest.filter Message.isUser).length
      simp only [users, List.length_cons]
      rw [Number.share_succ, size]
      split
      · rename_i room
        rw [if_pos room.2]
        refine ⟨congrArg (· + 1) marks, rfl, ?_⟩
        simp only [List.zip_cons_cons, List.filterMap_cons, if_true]
        -- A user message fits as long as all behind it did.
        have all := preserveUserMessages.share_all room.2
        rw [carried, all, Nat.sub_self, Nat.sub_self]
        rfl
      · rename_i full
        rw [if_neg fun admitted => full ⟨user, admitted⟩]
        refine ⟨congrArg (· + 1) marks, rfl, ?_⟩
        rw [List.zip_cons_cons, List.filterMap_cons_none rfl, carried, Nat.succ_sub within]
        rfl
    · have users : (message :: rest).filter Message.isUser =
          rest.filter Message.isUser := List.filter_cons_of_neg user
      rw [users, if_neg fun both => user both.1]
      exact ⟨congrArg (· + 1) marks, size, by
        rw [List.zip_cons_cons, List.filterMap_cons_none rfl, carried]⟩

theorem splitOlder_carried (older : List Message) :
    (splitOlder preserveUserMessages older).2 = carriedUsers preserveUserMessages older := by
  obtain ⟨-, size, carried⟩ := markCarried_spec preserveUserMessages older
  unfold splitOlder carriedUsers
  simp only
  have within := preserveUserMessages.share_le (older.filter Message.isUser).length
  have last : ((older.filter Message.isUser).drop ((older.filter Message.isUser).length -
      preserveUserMessages.share (older.filter Message.isUser).length)).length =
      preserveUserMessages.share (older.filter Message.isUser).length := by
    rw [List.length_drop]
    omega
  rw [last, size]
  by_cases all : preserveUserMessages.share (older.filter Message.isUser).length =
    older.length
  · rw [if_pos all]
    split
    · rfl
    · rename_i none
      have empty : older = [] := List.length_eq_zero_iff.mp (by omega)
      rw [empty]
      rfl
  · rw [if_neg fun both => all both.2, if_neg all]
    exact carried

theorem length_marked {items : List Message} {marks : List Bool}
    (same : marks.length = items.length) :
    ((items.zip marks).filterMap fun (message, carried) =>
        if carried then none else some message).length +
      ((items.zip marks).filterMap fun (message, carried) =>
        if carried then some message else none).length = items.length := by
  induction items generalizing marks with
  | nil => rfl
  | cons item rest ih =>
    cases marks with
    | nil => cases same
    | cons mark =>
      have rest' := ih (Nat.succ.inj same)
      simp only at rest'
      cases mark with
      | true =>
        simp only [List.zip_cons_cons, List.filterMap_cons, if_true, List.length_cons]
        omega
      | false =>
        simp only [List.zip_cons_cons, List.filterMap_cons, Bool.false_eq_true,
          if_false, List.length_cons]
        omega

theorem splitOlder_empty {preserveUserMessages : Number} {older : List Message}
    (none : (splitOlder preserveUserMessages older).1 = []) : older = [] := by
  obtain ⟨marks, size, carried⟩ := markCarried_spec preserveUserMessages older
  have parts := length_marked marks
  unfold splitOlder at none
  simp only at none
  split at none
  · exact none
  · rename_i some
    simp only at none parts carried
    rw [none, carried, List.length_nil, List.length_drop] at parts
    rw [size] at some
    have within := preserveUserMessages.share_le (older.filter Message.isUser).length
    apply List.length_eq_zero_iff.mp
    omega

def CompactionStrategy.summarises : CompactionStrategy → Option SummarizeOldPreserveRecent
  | .summarizeOldPreserveRecent strategy => some strategy
  | .clearOldToolResults strategy =>
    match strategy.summarizeFallback with
    | .off => none
    | .on fallback => some fallback

inductive Front (env : CompactionEnv) (strategy : CompactionStrategy)
    (messages : List Message) : Nat → List Message → Prop
  | whole : Front env strategy messages 0 []
  | summarised {settings : SummarizeOldPreserveRecent} {boundary : Nat} {summary : Text} :
      strategy.summarises = some settings → Snapped env settings messages boundary →
        Front env strategy messages boundary
          (.system summary ::
            carriedUsers settings.userMessages (messages.take boundary))

/-- A compacted conversation is a front and the messages from a boundary on. -/
structure Trimmed (env : CompactionEnv) (strategy : CompactionStrategy)
    (messages trimmed : List Message) (boundary : Nat) (front : List Message) : Prop where
  opens : Front env strategy messages boundary front
  kept : ∃ tail, trimmed = front ++ tail ∧
    List.Forall₂ (Kept strategy) (messages.drop boundary) tail

variable {env : CompactionEnv} {front : List Message} {boundary : Nat}

theorem quiet_of_front (summary : Text) (older : List Message) :
    ∀ message ∈ .system summary :: carriedUsers preserveUserMessages older,
      message.turn = .announces [] := by
  intro message here
  rcases List.mem_cons.mp here with rfl | here
  · rfl
  · have user : message.isUser = true := by
      rw [carriedUsers] at here
      split at here
      · cases here
      · exact (List.mem_filter.mp (List.mem_of_mem_drop here)).2
    cases message with
    | user => rfl
    | system => rfl
    | assistant => cases user
    | tool => cases user

theorem front_quiet (opens : Front env strategy messages boundary front) :
    ∀ turn ∈ turns front, turn = .announces [] := by
  intro turn there
  obtain ⟨message, here, rfl⟩ := List.mem_map.mp there
  cases opens with
  | whole => cases here
  | summarised => exact quiet_of_front _ _ _ message here

variable {trimmed : List Message}

theorem Trimmed.turns_eq (shape : Trimmed env strategy messages trimmed boundary front) :
    turns trimmed = turns front ++ (turns messages).drop boundary := by
  obtain ⟨tail, rfl, kept⟩ := shape.kept
  have kept' := turns_of_kept kept
  unfold turns at kept' ⊢
  rw [List.map_append, kept', List.map_drop]

theorem Trimmed.starts (shape : Trimmed env strategy messages trimmed boundary front)
    (wellFormed : Transcript.WellFormed [] (turns messages)) :
    ((turns messages)[boundary]?).any Turn.isAnswer = false := by
  rw [turns_isAnswer]
  cases shape.opens with
  | whole => exact first_of_wellFormed wellFormed
  | summarised _ snapped => exact snapped.starts

theorem Trimmed.wellFormed (shape : Trimmed env strategy messages trimmed boundary front)
    (wellFormed : Transcript.WellFormed [] (turns messages)) :
    Transcript.WellFormed [] (turns trimmed) := by
  rw [shape.turns_eq]
  exact .behind (front_quiet shape.opens)
    (wellFormed.drop (shape.starts wellFormed))

theorem announced_of_wellFormed {before after : List Message} {toolCallId : JsText}
    {content : Content} (wellFormed : Transcript.WellFormed [] (turns messages))
    (split : messages = before ++ .tool toolCallId content :: after) :
    ∃ announcing ∈ before, toolCallId ∈ announcing.calls.map (·.toolCallId) := by
  rw [split, turns, List.map_append, List.map_cons] at wellFormed
  rcases wellFormed.announced with here | ⟨calls, there, here⟩
  · cases here
  · obtain ⟨message, among, same⟩ := List.mem_map.mp there
    refine ⟨message, among, ?_⟩
    cases message with
    | tool => cases same
    | assistant =>
      injection same with same
      rw [same]
      exact here
    | system =>
      injection same with same
      rw [same]
      exact here
    | user =>
      injection same with same
      rw [same]
      exact here

theorem Trimmed.answered (shape : Trimmed env strategy messages trimmed boundary front)
    {place : Nat} {calls : List JsText}
    (announces : (turns trimmed)[place]? = some (.announces calls)) (some : calls ≠ []) :
    ∃ source, boundary ≤ source ∧ place = front.length + (source - boundary) ∧
      (turns messages)[source]? = .some (.announces calls) ∧
      ∀ call, Transcript.Answered (turns messages) source call →
        Transcript.Answered (turns trimmed) place call := by
  rw [shape.turns_eq] at announces ⊢
  by_cases inFront : place < (turns front).length
  · rw [List.getElem?_append_left inFront] at announces
    have quiet := front_quiet shape.opens _ (List.mem_of_getElem? announces)
    injection quiet with quiet
    exact absurd quiet some
  · rw [List.getElem?_append_right (by omega), List.getElem?_drop] at announces
    have length : (turns front).length = front.length := List.length_map _
    refine ⟨boundary + (place - (turns front).length), by omega, by omega, announces, ?_⟩
    intro call answered
    have kept : boundary ≤ boundary + (place - (turns front).length) := by omega
    have moved : Transcript.Answered (turns front ++ (turns messages).drop boundary) _ _ :=
      answered.moved kept
    rwa [show (turns front).length + (boundary + (place - (turns front).length) -
      boundary) = place by omega] at moved

def olderMessages (env : CompactionEnv) (settings : SummarizeOldPreserveRecent)
    (messages : List Message) : List Message :=
  (splitOlder settings.userMessages
    (messages.take (olderCountOf env settings messages))).1

def summaryBody (trust : SummaryTrust) (text : Text) : Text :=
  if trust = .untrustedDerived then wrapSummaryAsDerived text else text

theorem summarizeOldPreserveRecent_cases {settings : SummarizeOldPreserveRecent}
    {result : CompactionResult}
    (ran : summarizeOldPreserveRecent env settings messages = .ok result) :
    (messages.take (olderCountOf env settings messages) = [] ∧ result.summary = [] ∧
        result.trimmedMessages = messages) ∨
      ∃ summarized metadata,
        env.summarize (buildSummarizerPrompt env.template (olderMessages env settings messages)
          settings.summarizerInputCharBudget) = .ok summarized ∧
        messages.take (olderCountOf env settings messages) ≠ [] ∧
        result.summary = renderFinalSummary env.numberText env.template
          (summaryBody (resolveSummaryTrust
            (windowContainsUntrusted (olderMessages env settings messages))
            (env.scanImperativePatterns summarized.text.units)) summarized.text)
          (carriedUsers settings.userMessages
            (messages.take (olderCountOf env settings messages)) ++
              messages.drop (olderCountOf env settings messages)) metadata ∧
        result.trimmedMessages = .system result.summary ::
          (carriedUsers settings.userMessages
            (messages.take (olderCountOf env settings messages)) ++
              messages.drop (olderCountOf env settings messages)) := by
  unfold summarizeOldPreserveRecent at ran
  simp only at ran
  rw [splitOlder_carried] at ran
  split at ran
  · rename_i none
    cases ran
    have older := splitOlder_empty none
    refine .inl ⟨older, rfl, ?_⟩
    simp only
    rw [older, carriedUsers_nil]
    have all := List.take_append_drop (olderCountOf env settings messages) messages
    rw [older] at all
    exact all
  · rename_i some
    obtain ⟨summarized, answered, rfl⟩ := ok_of_map ran
    refine .inr ⟨summarized, _, answered, fun older => some ?_, rfl, rfl⟩
    rw [older]
    rfl

theorem tools_of_kept (kept : List.Forall₂ (Kept strategy) messages messages')
    (index : Nat) : (messages'[index]?).any Message.isTool =
      (messages[index]?).any Message.isTool := by
  rw [← turns_isAnswer, ← turns_isAnswer, turns_of_kept kept]

theorem cut_of_kept {settings : SummarizeOldPreserveRecent}
    (kept : List.Forall₂ (Kept strategy) messages messages') :
    requestedOlder env settings messages' = requestedOlder env settings messages ∧
      cut env settings messages' = cut env settings messages := by
  have same : requestedOlder env settings messages' = requestedOlder env settings messages := by
    rw [requestedOlder, requestedOlder, kept.length_eq]
  exact ⟨same, by rw [cut, cut, same, kept.length_eq]⟩

/-- Snapping and carrying look at what a clearing keeps. -/
theorem Snapped.of_kept {settings : SummarizeOldPreserveRecent}
    (kept : List.Forall₂ (Kept strategy) messages messages')
    (snapped : Snapped env settings messages' boundary) :
    Snapped env settings messages boundary := by
  obtain ⟨within, least, starts⟩ := snapped
  simp only [tools_of_kept kept, (cut_of_kept kept).2] at within least starts
  exact ⟨within, least, starts⟩

theorem cleanCut_of_kept {settings : SummarizeOldPreserveRecent}
    (kept : List.Forall₂ (Kept strategy) messages messages') :
    CleanCut env settings messages' ↔ CleanCut env settings messages := by
  rw [CleanCut, CleanCut, tools_of_kept kept, (cut_of_kept kept).1, (cut_of_kept kept).2]

theorem carriedUsers_of_kept (kept : List.Forall₂ (Kept strategy) messages messages')
    (preserveUserMessages : Number) :
    carriedUsers preserveUserMessages messages' = carriedUsers preserveUserMessages messages := by
  rw [carriedUsers, carriedUsers, users_of_kept kept, kept.length_eq]

/-- The settings a summary is made with. -/
inductive Summarises (env : CompactionEnv) :
    CompactionStrategy → List Message → SummarizeOldPreserveRecent → Prop
  | straight {settings : SummarizeOldPreserveRecent} {messages : List Message} :
      Summarises env (.summarizeOldPreserveRecent settings) messages settings
  | fallback {strategy : ClearOldToolResults} {settings : SummarizeOldPreserveRecent}
      {messages : List Message} {outcome : ClearToolResultsOutcome} :
        clearOldToolResults { strategy.options with placeholder := none } env.tokenCounter
          messages = .ok outcome →
        strategy.summarizeFallback = .on settings →
        env.thresholdTokens < countMessageTokens outcome.messages env.tokenCounter →
          Summarises env (.clearOldToolResults strategy) messages settings

theorem executed_cases {result : CompactionResult}
    (ran : executeCompaction env strategy messages = .ok result) :
    ((∀ settings, ¬ Summarises env strategy messages settings) ∧
        List.Forall₂ (Kept strategy) messages result.trimmedMessages) ∨
      ∃ settings messages' summarised, Summarises env strategy messages settings ∧
        strategy.summarises = some settings ∧
        (∀ other, Summarises env strategy messages other → other = settings) ∧
        List.Forall₂ (Kept strategy) messages messages' ∧
        summarizeOldPreserveRecent env settings messages' = .ok summarised ∧
        result.trimmedMessages = summarised.trimmedMessages := by
  cases strategy with
  | summarizeOldPreserveRecent settings =>
    refine .inr ⟨settings, messages, result, .straight, rfl, ?_, ?_, ran, rfl⟩
    · intro other summarises
      cases summarises
      rfl
    · exact List.forall₂_same.mpr fun _ _ => .same
  | clearOldToolResults strategy =>
    obtain ⟨outcome, cleared, ran⟩ := ok_of_bind ran
    have kept := kept_of_cleared cleared
    simp only at ran
    split at ran
    · rename_i off
      cases ran
      refine .inl ⟨fun settings summarises => ?_, kept⟩
      cases summarises with
      | fallback _ on => cases off.symm.trans on
    · rename_i fallback on
      split at ran
      · rename_i past
        obtain ⟨summarised, ran', rfl⟩ := ok_of_map ran
        refine .inr ⟨fallback, outcome.messages, summarised, .fallback cleared on past, ?_, ?_,
          kept, ran', rfl⟩
        · rw [CompactionStrategy.summarises, on]
        · intro other summarises
          cases summarises with
          | fallback _ on' => exact (SummarizeFallback.on.inj (on.symm.trans on')).symm
      · rename_i below
        cases ran
        refine .inl ⟨fun settings summarises => ?_, kept⟩
        cases summarises with
        | fallback cleared' _ past =>
          obtain rfl := Except.ok.inj (cleared.symm.trans cleared')
          exact below past

theorem trimmed_of_executed {result : CompactionResult}
    (first : (messages[0]?).any Message.isTool = false)
    (clean : ∀ settings, Summarises env strategy messages settings →
      CleanCut env settings messages)
    (ran : executeCompaction env strategy messages = .ok result) :
    ∃ boundary front,
      Trimmed env strategy messages result.trimmedMessages boundary front := by
  rcases executed_cases ran with
    ⟨-, kept⟩ | ⟨settings, messages', summarised, summarises, settled, -, kept, ran', same⟩
  · exact ⟨0, [], .whole, result.trimmedMessages, rfl, kept⟩
  · rw [same]
    rcases summarizeOldPreserveRecent_cases ran' with
      ⟨-, -, whole⟩ | ⟨summarized, metadata, -, -, -, shape⟩
    · exact ⟨0, [], .whole, messages', whole, kept⟩
    · have first' : (messages'[0]?).any Message.isTool = false := by
        rw [tools_of_kept kept]
        exact first
      have snapped' := snapped first' ((cleanCut_of_kept kept).mpr (clean settings summarises))
      rw [carriedUsers_of_kept (List.forall₂_take _ kept)] at shape
      exact ⟨_, _, .summarised settled (snapped'.of_kept kept), _, shape,
        List.forall₂_drop _ kept⟩

/-- Each tool message has its announcement before it; the messages from the boundary on are
kept, behind the summary and the last of the older user messages; and what was answered is,
where its announcement still stands. -/
structure KeepsConversation (env : CompactionEnv) (strategy : CompactionStrategy)
    (messages trimmed : List Message) : Prop where
  announced : ∀ before toolCallId content after,
    trimmed = before ++ .tool toolCallId content :: after →
      ∃ announcing ∈ before, toolCallId ∈ announcing.calls.map (·.toolCallId)
  kept : ∃ boundary front, Trimmed env strategy messages trimmed boundary front ∧
    ∀ place calls, (turns trimmed)[place]? = some (.announces calls) → calls ≠ [] →
      ∃ source, boundary ≤ source ∧ place = front.length + (source - boundary) ∧
        (turns messages)[source]? = some (.announces calls) ∧
        ∀ call, Transcript.Answered (turns messages) source call →
          Transcript.Answered (turns trimmed) place call

/-- A tool message that the cut falls before has nothing but a summary and user messages
before it. -/
theorem cleanCut_of_announced {settings : SummarizeOldPreserveRecent}
    {result : CompactionResult} (first : (messages[0]?).any Message.isTool = false)
    (ran : summarizeOldPreserveRecent env settings messages = .ok result)
    (announced : ∀ before toolCallId content after,
      result.trimmedMessages = before ++ .tool toolCallId content :: after →
        ∃ announcing ∈ before, toolCallId ∈ announcing.calls.map (·.toolCallId)) :
    CleanCut env settings messages := by
  by_contra unclean
  obtain ⟨toolCallId, content, tool⟩ := olderCountOf_of_not_clean unclean
  obtain ⟨inside, stands⟩ := List.getElem?_eq_some_iff.mp tool
  rcases summarizeOldPreserveRecent_cases ran with
    ⟨none, -⟩ | ⟨summarized, metadata, -, -, -, shape⟩
  · have start : olderCountOf env settings messages = 0 := by
      have length := congrArg List.length none
      rw [List.length_take, List.length_nil] at length
      omega
    rw [start] at tool
    rw [tool] at first
    cases first
  · rw [List.drop_eq_getElem_cons inside, stands, ← List.cons_append] at shape
    obtain ⟨announcing, front, called⟩ := announced _ _ _ _ shape
    have quiet := quiet_of_front _ _ _ announcing front
    cases announcing with
    | assistant =>
      injection quiet with quiet
      rw [quiet] at called
      cases called
    | tool => cases quiet
    | system => cases called
    | user => cases called

/-- Compaction keeps a well-formed conversation so exactly when the cut is clean wherever a
summary is made. -/
theorem executeCompaction_keeps_conversation {env : CompactionEnv}
    {strategy : CompactionStrategy} {messages : List Message} {result : CompactionResult}
    (wellFormed : Transcript.WellFormed [] (turns messages))
    (ran : executeCompaction env strategy messages = .ok result) :
    KeepsConversation env strategy messages result.trimmedMessages ↔
      ∀ settings, Summarises env strategy messages settings →
        CleanCut env settings messages := by
  have first := first_of_wellFormed wellFormed
  constructor
  · intro keeps settings summarises
    rcases executed_cases ran with
      ⟨none, -⟩ | ⟨only, messages', summarised, -, -, unique, kept, ran', same⟩
    · exact absurd summarises (none settings)
    · rw [unique settings summarises]
      refine (cleanCut_of_kept kept).mp (cleanCut_of_announced ?_ ran' ?_)
      · rw [tools_of_kept kept]
        exact first
      · rw [← same]
        exact keeps.announced
  · intro clean
    obtain ⟨boundary, front, shape⟩ := trimmed_of_executed first clean ran
    refine ⟨fun before toolCallId content after split => ?_, boundary, front, shape, ?_⟩
    · exact announced_of_wellFormed (shape.wellFormed wellFormed) split
    · intro place calls announces some
      exact shape.answered announces some

/-- A summarizer that notes the work done. -/
def plainEnv : CompactionEnv where
  template := { preamble := ascii "Summarise.", sections := [ascii "Recent", ascii "Meta"] }
  summarize _ := .ok { text := literal "Work was done." }
  tokenCounter := { countText := List.length }
  thresholdTokens := 0
  scanImperativePatterns _ := some 0
  now := 0
  nowIso := ascii "1970-01-01T00:00:00.000Z"
  round := id
  numberText value :=
    (if value < 0 then [0x2d] else []) ++ decimal value.num.natAbs ++
      if value.den = 1 then [] else ascii ".5"

def oneCall : List Message :=
  [.user (.plain (literal "go")) none,
    .assistant (.plain []) (some [⟨ascii "c1", ascii "read", literal "{}"⟩]) none,
    .tool (ascii "c1") (.plain (literal "done")), .user (.plain (literal "more")) none]

def keepRecent (recent : Rat) : CompactionStrategy :=
  .summarizeOldPreserveRecent { preserveRecentTurns := some (.finite recent) }

theorem oneCall_wellFormed : Transcript.WellFormed [] (turns oneCall) :=
  ⟨List.mem_singleton.mpr rfl, trivial⟩

/-- Two recent messages are asked for; the boundary moves back to the announcement. -/
theorem call_and_answer_stay_together :
    ∃ result, executeCompaction plainEnv (keepRecent 2) oneCall = .ok result ∧
      result.trimmedMessages.tail = oneCall.tail ∧
      KeepsConversation plainEnv (keepRecent 2) oneCall result.trimmedMessages := by
  have older : olderCountOf plainEnv { preserveRecentTurns := some (.finite 2) } oneCall =
      1 := by decide +kernel
  obtain ⟨result, ran, tail⟩ : ∃ result,
      executeCompaction plainEnv (keepRecent 2) oneCall = .ok result ∧
        result.trimmedMessages.tail = oneCall.tail := by
    simp only [keepRecent, executeCompaction, summarizeOldPreserveRecent, older]
    exact ⟨_, rfl, by decide⟩
  refine ⟨result, ran, tail, ?_⟩
  refine (executeCompaction_keeps_conversation oneCall_wellFormed ran).mpr ?_
  intro settings summarises
  cases summarises
  exact .inl (by decide +kernel)

/-- One and a half recent messages are asked for: the answer stays without its call. -/
theorem half_a_turn_parts_them : Transcript.WellFormed [] (turns oneCall) ∧
    ∃ result, executeCompaction plainEnv (keepRecent (3 / 2)) oneCall = .ok result ∧
      ¬ KeepsConversation plainEnv (keepRecent (3 / 2)) oneCall result.trimmedMessages := by
  have older : olderCountOf plainEnv { preserveRecentTurns := some (.finite (3 / 2)) }
      oneCall = 2 := by decide +kernel
  obtain ⟨result, ran, summary, shape⟩ : ∃ result,
      executeCompaction plainEnv (keepRecent (3 / 2)) oneCall = .ok result ∧
        ∃ summary, result.trimmedMessages = [.system summary, .user (.plain (literal "go")) none,
          .tool (ascii "c1") (.plain (literal "done")),
          .user (.plain (literal "more")) none] := by
    simp only [keepRecent, executeCompaction, summarizeOldPreserveRecent, older]
    exact ⟨_, rfl, _, rfl⟩
  refine ⟨oneCall_wellFormed, result, ran, fun keeps => ?_⟩
  obtain ⟨announcing, before, called⟩ := keeps.announced
    [.system summary, .user (.plain (literal "go")) none] (ascii "c1")
    (.plain (literal "done")) _ shape
  rcases List.mem_cons.mp before with rfl | before
  · cases called
  · obtain rfl := List.mem_singleton.mp before
    cases called

end Graphorin.Memory.Compaction
