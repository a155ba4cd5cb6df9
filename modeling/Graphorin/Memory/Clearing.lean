import Graphorin.Memory.Trimming
import Mathlib.Algebra.Order.BigOperators.Group.List
import Mathlib.Algebra.Order.Group.Nat
import Mathlib.Data.List.Pairwise

namespace Graphorin.Memory.Compaction

open Lib Audit

/-! What a clearing saves, and what a second one finds. -/

/-- A counter whose count of messages is the sum of its counts of each. -/
def Additive (counter : ContextTokenCounter) : Prop :=
  ∀ messages others, countMessageTokens (messages ++ others) counter =
    countMessageTokens messages counter + countMessageTokens others counter

def weight (counter : ContextTokenCounter) (message : Message) : Nat :=
  countMessageTokens [message] counter

theorem countMessageTokens_eq {counter : ContextTokenCounter} (additive : Additive counter)
    (messages : List Message) :
    countMessageTokens messages counter = (messages.map (weight counter)).sum := by
  have none := additive [] []
  rw [List.append_nil] at none
  induction messages with
  | nil =>
    rw [List.map_nil, List.sum_nil]
    omega
  | cons message rest ih =>
    rw [List.map_cons, List.sum_cons, ← ih]
    exact additive [message] rest

theorem sum_set {numbers : List Nat} {index old : Nat} (there : numbers[index]? = some old)
    (new : Nat) : (numbers.set index new).sum + old = numbers.sum + new := by
  induction numbers generalizing index with
  | nil => cases there
  | cons number rest ih =>
    cases index with
    | zero =>
      cases there
      rw [List.set_cons_zero, List.sum_cons, List.sum_cons]
      omega
    | succ =>
      have tail := ih there
      rw [List.set_cons_succ, List.sum_cons, List.sum_cons]
      omega

section Clearing

variable (options : ClearToolResultsOptions) (counter : ContextTokenCounter)
  (messages : List Message)

/-- The replacements before anything is externalized. -/
def drafts : List Replacement :=
  (clearable options messages).map (replacementFor options counter messages)

def afterTokens (replacement : Replacement) : Nat :=
  tokensOf counter replacement.result (.plain replacement.placeholder)

def withInputs (cleared : List JsText) (message : Message) : Message :=
  if options.clearToolInputs then elideInputs cleared message else message

theorem clearing_cases {options : ClearToolResultsOptions} {counter : ContextTokenCounter}
    {messages : List Message} {outcome : ClearToolResultsOutcome}
    (cleared : clearOldToolResults options counter messages = .ok outcome) :
    (¬Commits options counter messages ∧ outcome = ⟨messages, [], 0⟩) ∨
      Commits options counter messages ∧ ∃ settled,
        (drafts options counter messages).mapM (externalizeResult options) = .ok settled ∧
        outcome.messages = (messages.mapIdx (replaceResult settled)).map
          (withInputs options (settled.map (·.result.toolCallId))) ∧
        outcome.clearedIndices = settled.map (·.result.index) ∧
        outcome.reclaimedTokens =
          ((drafts options counter messages).map (Replacement.saves counter)).sum := by
  unfold clearOldToolResults at cleared
  simp only at cleared
  split at cleared
  · rename_i idle
    cases cleared
    exact .inl ⟨fun commits => commits idle, rfl⟩
  · rename_i commits
    obtain ⟨settled, externalized, rfl⟩ := ok_of_map cleared
    refine .inr ⟨commits, settled, externalized, ?_, rfl, rfl⟩
    by_cases inputs : options.clearToolInputs = true
    · have elides : withInputs options (settled.map (·.result.toolCallId)) =
          elideInputs (settled.map (·.result.toolCallId)) :=
        funext fun message => if_pos inputs
      rw [elides]
      exact if_pos inputs
    · have keeps : withInputs options (settled.map (·.result.toolCallId)) = id :=
        funext fun message => if_neg inputs
      rw [keeps, List.map_id]
      exact if_neg inputs

theorem externalizeResult_eq {replacement settled : Replacement}
    (externalized : externalizeResult options replacement = .ok settled) :
    ∃ placeholder, settled = { replacement with placeholder } := by
  unfold externalizeResult at externalized
  split at externalized
  · cases externalized
    exact ⟨_, rfl⟩
  · obtain ⟨handle, -, rfl⟩ := ok_of_map externalized
    exact ⟨_, rfl⟩

variable {settled : List Replacement}

theorem settled_results
    (externalized : (drafts options counter messages).mapM (externalizeResult options) =
      .ok settled)
    : settled.map (·.result) = clearable options messages := by
  have same : settled.map (·.result) = (drafts options counter messages).map (·.result) := by
    refine map_of_mapM (fun item result externalized => ?_) externalized
    obtain ⟨_, rfl⟩ := externalizeResult_eq options externalized
    rfl
  rw [same, drafts, List.map_map]
  exact List.map_id _

def toolResult? : Message × Nat → Option ToolResult
  | (.tool toolCallId content, index) =>
    if isAlreadyCleared content then none else some { index, toolCallId, content }
  | _ => none

theorem toolResults_eq (messages : List Message) :
    toolResults messages = messages.zipIdx.filterMap toolResult? := rfl

variable {result : ToolResult}

theorem toolResult?_eq_some {place : Message × Nat}
    (found : toolResult? place = some result) :
    place = (.tool result.toolCallId result.content, result.index) ∧
      isAlreadyCleared result.content = false := by
  obtain ⟨message, index⟩ := place
  cases message with
  | tool toolCallId content =>
    rw [toolResult?] at found
    split at found
    · cases found
    · rename_i uncleared
      cases found
      exact ⟨rfl, Bool.not_eq_true _ ▸ uncleared⟩
  | system => cases found
  | user => cases found
  | assistant => cases found

theorem toolResults_sorted (messages : List Message) :
    (toolResults messages).Pairwise fun first second => first.index < second.index := by
  rw [toolResults_eq, List.pairwise_filterMap]
  have places : messages.zipIdx.Pairwise fun first second => first.2 < second.2 := by
    rw [← List.pairwise_map, List.zipIdx_map_snd]
    exact List.pairwise_lt_range'
  refine places.imp fun {first second} before result found other found' => ?_
  rw [(toolResult?_eq_some found).1, (toolResult?_eq_some found').1] at before
  exact before

theorem mapIdx_replaceResult (replacement : Replacement) (rest : List Replacement) :
    messages.mapIdx (replaceResult (replacement :: rest)) =
      (messages.mapIdx (replaceResult rest)).set replacement.result.index
        (.tool replacement.result.toolCallId (.plain replacement.placeholder)) := by
  refine List.ext_getElem? fun index => ?_
  rw [List.getElem?_set, List.getElem?_mapIdx, List.getElem?_mapIdx, List.length_mapIdx]
  split
  · rename_i here
    subst here
    split
    · rename_i inside
      have first : ((replacement :: rest).find? fun other =>
          other.result.index == replacement.result.index) = some replacement :=
        List.find?_cons_of_pos (beq_self_eq_true _)
      rw [List.getElem?_eq_getElem inside, Option.map_some, replaceResult, first]
    · rename_i outside
      rw [List.getElem?_eq_none (not_lt.mp outside), Option.map_none]
  · rename_i elsewhere
    congr 1
    funext message
    rw [replaceResult, List.find?_cons_of_neg (by simpa using elsewhere), ← replaceResult]

variable {index : Nat}

theorem replaceResult_of_ne (elsewhere : index ∉ settled.map (·.result.index))
    (message : Message) : replaceResult settled index message = message := by
  have none : (settled.find? fun replacement => replacement.result.index == index) = none :=
    List.find?_eq_none.mpr fun replacement there same =>
      elsewhere (List.mem_map.mpr ⟨replacement, there, beq_iff_eq.mp same⟩)
  rw [replaceResult, none]

/-- What the results took and what their placeholders take, over one rewriting of the other
messages. -/
theorem replaced_sum (rewrite : Message → Message)
    (tools : ∀ toolCallId content, rewrite (.tool toolCallId content) = .tool toolCallId content)
    (distinct : (settled.map (·.result.index)).Nodup)
    (stands : ∀ replacement ∈ settled, messages[replacement.result.index]? =
      some (.tool replacement.result.toolCallId replacement.result.content)) :
    (((messages.mapIdx (replaceResult settled)).map rewrite).map (weight counter)).sum +
        (settled.map fun replacement =>
          tokensOf counter replacement.result replacement.result.content).sum =
      ((messages.map rewrite).map (weight counter)).sum +
        (settled.map (afterTokens counter)).sum := by
  induction settled with
  | nil =>
    have same : messages.mapIdx (replaceResult []) = messages := by
      refine List.ext_getElem? fun index => ?_
      rw [List.getElem?_mapIdx]
      cases messages[index]? with
      | none => rfl
      | some => rfl
    rw [same]
    rfl
  | cons replacement rest ih =>
    rw [List.map_cons, List.nodup_cons] at distinct
    obtain ⟨here, others⟩ := List.forall_mem_cons.mp stands
    have before := ih distinct.2 others
    have there : (((messages.mapIdx (replaceResult rest)).map rewrite).map
        (weight counter))[replacement.result.index]? =
          some (tokensOf counter replacement.result replacement.result.content) := by
      rw [List.getElem?_map, List.getElem?_map, List.getElem?_mapIdx, here, Option.map_some,
        Option.map_some, Option.map_some, replaceResult_of_ne distinct.1, tools]
      rfl
    have written := sum_set there (afterTokens counter replacement)
    rw [mapIdx_replaceResult, List.map_set, List.map_set, tools, List.map_cons, List.map_cons,
      List.sum_cons, List.sum_cons]
    change ((((messages.mapIdx (replaceResult rest)).map rewrite).map
      (weight counter)).set replacement.result.index (afterTokens counter replacement)).sum +
        _ = _
    omega

theorem settled_distinct (results : settled.map (·.result) = clearable options messages) :
    (settled.map (·.result.index)).Nodup := by
  have indices : settled.map (·.result.index) =
      (clearable options messages).map (·.index) := by
    rw [← results, List.map_map]
    rfl
  have sorted : (clearable options messages).Pairwise
      fun first second => first.index < second.index := by
    rw [clearable]
    exact ((toolResults_sorted messages).take).filter _
  rw [indices, List.nodup_iff_pairwise_ne, List.pairwise_map]
  exact sorted.imp fun less => less.ne

theorem settled_stands (results : settled.map (·.result) = clearable options messages) :
    ∀ replacement ∈ settled, messages[replacement.result.index]? =
      some (.tool replacement.result.toolCallId replacement.result.content) := by
  intro replacement there
  have among : replacement.result ∈ clearable options messages := by
    rw [← results]
    exact List.mem_map_of_mem there
  exact mem_toolResults (mem_clearable among)

/-- The final placeholders, together with the buffer after its inputs are elided, take no more
than the smaller of each result and its first placeholder, together with the buffer. -/
def Fits (settled : List Replacement) : Prop :=
  (settled.map (afterTokens counter)).sum +
      ((messages.map (withInputs options (settled.map (·.result.toolCallId)))).map
        (weight counter)).sum ≤
    ((drafts options counter messages).map fun draft =>
      min draft.info.clearedTokens (afterTokens counter draft)).sum +
        (messages.map (weight counter)).sum

theorem drafts_sum :
    ((drafts options counter messages).map fun draft => draft.info.clearedTokens).sum =
      ((drafts options counter messages).map fun draft =>
        min draft.info.clearedTokens (afterTokens counter draft)).sum +
        ((drafts options counter messages).map (Replacement.saves counter)).sum := by
  rw [← List.sum_map_add]
  refine congrArg List.sum (List.map_congr_left fun draft _ => ?_)
  rw [Replacement.saves, afterTokens]
  omega

theorem withInputs_tool (cleared : List JsText) (toolCallId : JsText) (content : Content) :
    withInputs options cleared (.tool toolCallId content) = .tool toolCallId content := by
  rw [withInputs, elideInputs_tool, ite_self]

theorem reclaims_iff_fits {counter : ContextTokenCounter} (additive : Additive counter)
    (results : settled.map (·.result) = clearable options messages) :
    countMessageTokens ((messages.mapIdx (replaceResult settled)).map
          (withInputs options (settled.map (·.result.toolCallId)))) counter +
        ((drafts options counter messages).map (Replacement.saves counter)).sum ≤
      countMessageTokens messages counter ↔ Fits options counter messages settled := by
  have sums := replaced_sum counter messages _
    (withInputs_tool options (settled.map (·.result.toolCallId)))
    (settled_distinct options messages results) (settled_stands options messages results)
  have cleared : (settled.map fun replacement =>
      tokensOf counter replacement.result replacement.result.content) =
      (drafts options counter messages).map fun draft => draft.info.clearedTokens := by
    rw [drafts, ← results, List.map_map, List.map_map]
    rfl
  have floors := drafts_sum options counter messages
  rw [cleared] at sums
  rw [countMessageTokens_eq additive, countMessageTokens_eq additive, Fits]
  omega

def clearedBuffer (settled : List Replacement) : List Message :=
  (messages.mapIdx (replaceResult settled)).map
    (withInputs options (settled.map (·.result.toolCallId)))

theorem settled_marked (plain : options.placeholder = none)
    (externalized : (drafts options counter messages).mapM (externalizeResult options) =
      .ok settled) :
    ∀ replacement ∈ settled, isAlreadyCleared (.plain replacement.placeholder) = true := by
  intro replacement there
  obtain ⟨draft, here, answered⟩ := mem_of_mapM externalized there
  obtain ⟨result, among, rfl⟩ := List.mem_map.mp here
  rcases (replaces_of_externalized among answered).reads with
    ⟨-, reads⟩ | ⟨externalize, handle, -, -, reads⟩
  · rw [reads, plain]
    exact marked_defaultPlaceholder _
  · rw [reads]
    exact marked_handlePlaceholder _ _ _

theorem replaceResult_of_mem (here : index ∈ settled.map (·.result.index))
    (message : Message) :
    ∃ replacement ∈ settled, replaceResult settled index message =
      .tool replacement.result.toolCallId (.plain replacement.placeholder) := by
  rw [replaceResult]
  cases found : settled.find? fun replacement => replacement.result.index == index with
  | some replacement => exact ⟨replacement, List.mem_of_find?_eq_some found, rfl⟩
  | none =>
    obtain ⟨replacement, there, same⟩ := List.mem_map.mp here
    exact absurd (beq_iff_eq.mpr same) (List.find?_eq_none.mp found replacement there)

theorem zipIdx_clearedBuffer (settled : List Replacement) :
    (clearedBuffer options messages settled).zipIdx = messages.zipIdx.map fun place =>
      (withInputs options (settled.map (·.result.toolCallId))
        (replaceResult settled place.2 place.1), place.2) := by
  refine List.ext_getElem? fun index => ?_
  rw [clearedBuffer, List.getElem?_zipIdx, List.getElem?_map, List.getElem?_mapIdx,
    List.getElem?_map, List.getElem?_zipIdx]
  cases messages[index]? with
  | none => rfl
  | some => simp

theorem toolResult?_withInputs (cleared : List JsText) (message : Message) (index : Nat) :
    toolResult? (withInputs options cleared message, index) = toolResult? (message, index) := by
  rw [withInputs]
  split
  · cases message with
    | assistant _ toolCalls =>
      cases toolCalls with
      | none => rfl
      | some => rfl
    | system => rfl
    | user => rfl
    | tool => rfl
  · rfl

theorem toolResults_clearedBuffer
    (marked : ∀ replacement ∈ settled, isAlreadyCleared (.plain replacement.placeholder) = true) :
    toolResults (clearedBuffer options messages settled) =
      (toolResults messages).filter fun result =>
        result.index ∉ settled.map (·.result.index) := by
  rw [toolResults_eq, toolResults_eq, zipIdx_clearedBuffer, List.filterMap_map,
    List.filter_filterMap]
  refine List.filterMap_congr fun place _ => ?_
  rw [Function.comp, toolResult?_withInputs]
  by_cases here : place.2 ∈ settled.map (·.result.index)
  · obtain ⟨replacement, there, same⟩ := replaceResult_of_mem here place.1
    rw [same, toolResult?, if_pos (marked replacement there)]
    cases found : toolResult? place with
    | none => rfl
    | some =>
      rw [(toolResult?_eq_some found).1] at here
      exact (Option.filter_some_neg (by simpa using here)).symm
  · rw [replaceResult_of_ne here]
    cases found : toolResult? place with
    | none => rfl
    | some result =>
      rw [(toolResult?_eq_some found).1] at here
      have kept : Decidable.decide (result.index ∉ settled.map (·.result.index)) = true :=
        decide_eq_true here
      exact (if_pos kept).symm

def callName (call : ToolCall) : JsText × JsText := (call.toolCallId, call.toolName)

theorem toolNameById_eq (messages : List Message) (toolCallId : JsText) :
    toolNameById messages toolCallId =
      (((messages.map fun message => message.calls.map callName).flatten.reverse).find?
        fun name => name.1 == toolCallId).map Prod.snd := by
  have names : (messages.map fun message => message.calls.map callName).flatten =
      (messages.flatMap Message.calls).map callName := by
    rw [List.flatMap_def, List.map_flatten, List.map_map]
    rfl
  rw [names, ← List.map_reverse, List.find?_map, Option.map_map]
  rfl

theorem callNames_elideInputs (cleared : List JsText) (message : Message) :
    (elideInputs cleared message).calls.map callName = message.calls.map callName := by
  cases message with
  | assistant _ toolCalls =>
    cases toolCalls with
    | none => rfl
    | some =>
      refine (List.map_map ..).trans (List.map_congr_left fun call _ => ?_)
      rw [Function.comp, elideCall]
      split
      · rfl
      · rfl
  | system => rfl
  | user => rfl
  | tool => rfl

theorem toolNameById_clearedBuffer
    (stands : ∀ replacement ∈ settled, messages[replacement.result.index]? =
      some (.tool replacement.result.toolCallId replacement.result.content))
    (toolCallId : JsText) :
    toolNameById (clearedBuffer options messages settled) toolCallId =
      toolNameById messages toolCallId := by
  have names : ((clearedBuffer options messages settled).map fun message =>
      message.calls.map callName) = messages.map fun message => message.calls.map callName := by
    refine List.ext_getElem? fun index => ?_
    rw [clearedBuffer, List.getElem?_map, List.getElem?_map, List.getElem?_mapIdx,
      List.getElem?_map]
    cases there : messages[index]? with
    | none => rfl
    | some message =>
      have kept (message : Message) :
          (withInputs options (settled.map (·.result.toolCallId)) message).calls.map callName =
            message.calls.map callName := by
        rw [withInputs]
        split
        · exact callNames_elideInputs _ message
        · rfl
      simp only [Option.map_some, kept, Option.some_inj]
      by_cases here : index ∈ settled.map (·.result.index)
      · obtain ⟨replacement, -, replaced⟩ := replaceResult_of_mem here message
        obtain ⟨other, listed, same⟩ := List.mem_map.mp here
        have tool := stands other listed
        rw [same, there] at tool
        cases tool
        rw [replaced]
        rfl
      · rw [replaceResult_of_ne here]
  rw [toolNameById_eq, toolNameById_eq, names]

def unexcluded (result : ToolResult) : Bool :=
  match toolNameById messages result.toolCallId with
  | some name => !options.excludeTools.contains name
  | none => true

def keptCutoff : Nat :=
  ((toolResults messages).length -
    max 0 (options.keepToolUses.getD DEFAULT_KEEP_TOOL_USES) : Int).toNat

theorem clearable_eq : clearable options messages =
      ((toolResults messages).take (keptCutoff options messages)).filter
        (unexcluded options messages) := rfl

theorem remaining_eq (results : settled.map (·.result) = clearable options messages) :
    ((toolResults messages).filter fun result =>
        result.index ∉ settled.map (·.result.index)) =
      (((toolResults messages).take (keptCutoff options messages)).filter fun result =>
        !unexcluded options messages result) ++
          (toolResults messages).drop (keptCutoff options messages) := by
  have indices : settled.map (·.result.index) = (clearable options messages).map (·.index) := by
    rw [← results, List.map_map]
    rfl
  have sorted := toolResults_sorted messages
  rw [← List.take_append_drop (keptCutoff options messages) (toolResults messages),
    List.pairwise_append] at sorted
  obtain ⟨early, -, across⟩ := sorted
  conv_lhs => rw [← List.take_append_drop (keptCutoff options messages) (toolResults messages)]
  rw [List.filter_append, indices, clearable_eq]
  congr 1
  · refine List.filter_congr fun result there => Bool.eq_iff_iff.mpr ?_
    rw [decide_eq_true_iff, Bool.not_eq_true', List.mem_map, not_exists]
    constructor
    · intro unlisted
      rw [← Bool.not_eq_true]
      exact fun chosen => unlisted result ⟨List.mem_filter.mpr ⟨there, chosen⟩, rfl⟩
    · rintro excluded other ⟨listed, same⟩
      obtain ⟨there', chosen⟩ := List.mem_filter.mp listed
      have distinct : ((toolResults messages).take (keptCutoff options messages)).Pairwise
          fun first second => first.index ≠ second.index := early.imp fun less => less.ne
      have equal : other = result := by
        by_contra apart
        have symmetric : Std.Symm fun first second : ToolResult =>
          first.index ≠ second.index := ⟨fun _ _ => Ne.symm⟩
        exact distinct.forall there' there apart same
      rw [equal] at chosen
      exact absurd (chosen.symm.trans excluded) (by decide)
  · refine List.filter_eq_self.mpr fun result there => decide_eq_true fun listed => ?_
    obtain ⟨other, among, same⟩ := List.mem_map.mp listed
    exact absurd same (across other (List.mem_filter.mp among).1 result there).ne

/-- The results left to a second clearing are the excluded ones and those it keeps. -/
theorem clearable_clearedBuffer
    (results : settled.map (·.result) = clearable options messages)
    (marked : ∀ replacement ∈ settled, isAlreadyCleared (.plain replacement.placeholder) = true)
    (some' : clearable options messages ≠ []) :
    clearable options (clearedBuffer options messages settled) = [] := by
  have names := toolNameById_clearedBuffer options messages
    (settled_stands options messages results)
  have positive : 0 < keptCutoff options messages := by
    refine Nat.pos_of_ne_zero fun none => some' ?_
    rw [clearable_eq, none]
    rfl
  have same : unexcluded options (clearedBuffer options messages settled) =
      unexcluded options messages := by
    funext result
    rw [unexcluded, names, ← unexcluded]
  have cutoff : keptCutoff options (clearedBuffer options messages settled) ≤
      (((toolResults messages).take (keptCutoff options messages)).filter fun result =>
        !unexcluded options messages result).length := by
    have shape := positive
    rw [keptCutoff] at shape
    rw [keptCutoff, toolResults_clearedBuffer options messages marked, remaining_eq options messages
      results, List.length_append, List.length_drop]
    have cut : keptCutoff options messages = ((toolResults messages).length -
      max 0 (options.keepToolUses.getD DEFAULT_KEEP_TOOL_USES) : Int).toNat := rfl
    omega
  rw [clearable_eq, same, toolResults_clearedBuffer options messages marked,
    remaining_eq options messages results, List.take_append_of_le_length cutoff]
  refine List.filter_eq_nil_iff.mpr fun result there chosen => ?_
  have excluded := (List.mem_filter.mp (List.mem_of_mem_take there)).2
  rw [chosen] at excluded
  cases excluded

variable {α : Type}

theorem sum_min_iff (items : List α) (old new : α → Nat) :
    (items.map new).sum ≤ (items.map fun item => min (old item) (new item)).sum ↔
      ∀ item ∈ items, new item ≤ old item := by
  induction items with
  | nil => simp
  | cons item rest ih =>
    have below : (rest.map fun item => min (old item) (new item)).sum ≤ (rest.map new).sum :=
      List.sum_le_sum fun item _ => min_le_right _ _
    rw [List.map_cons, List.map_cons, List.sum_cons, List.sum_cons, List.forall_mem_cons, ← ih]
    omega

theorem mapM_pure {ε : Type} {f : α → Except ε α} (pure' : ∀ item, f item = .ok item)
    (items : List α) : items.mapM f = .ok items := by
  induction items with
  | nil => rfl
  | cons item rest ih =>
    rw [List.mapM_cons, pure', ih]
    rfl

theorem fits_plain (noSpill : options.externalize = none)
    (noInputs : options.clearToolInputs = false) :
    (∀ settled, (drafts options counter messages).mapM (externalizeResult options) =
        .ok settled → Fits options counter messages settled) ↔
      ∀ draft ∈ drafts options counter messages,
        afterTokens counter draft ≤ draft.info.clearedTokens := by
  have kept : (drafts options counter messages).mapM (externalizeResult options) =
      .ok (drafts options counter messages) := by
    refine mapM_pure (fun draft => ?_) _
    rw [externalizeResult, noSpill]
  have inputs (cleared : List JsText) : withInputs options cleared = id := by
    funext message
    rw [withInputs, noInputs]
    rfl
  rw [kept]
  simp only [Except.ok.injEq, forall_eq', Fits, inputs, List.map_id, Nat.add_le_add_iff_right]
  exact sum_min_iff _ _ _

def Outdated (result : ToolResult) : Prop :=
  unexcluded options messages result = true ∧ ∃ place : Nat,
    (toolResults messages)[place]? = some result ∧
      (place : Int) + max 0 (options.keepToolUses.getD DEFAULT_KEEP_TOOL_USES) <
        (toolResults messages).length

theorem outdated_of_clearable (among : result ∈ clearable options messages) :
    Outdated options messages result := by
  rw [clearable_eq] at among
  obtain ⟨early, left⟩ := List.mem_filter.mp among
  obtain ⟨place, inside, rfl⟩ := List.getElem_of_mem early
  rw [List.length_take] at inside
  refine ⟨left, place, ?_, ?_⟩
  · rw [List.getElem_take, List.getElem?_eq_getElem]
  · rw [keptCutoff] at inside
    omega

/-- A message of the buffer and what a clearing makes of it. -/
inductive Cleared (index : Nat) : Message → Message → Prop
  | same {message : Message} : Cleared index message message
  | result {result : ToolResult} {placeholder : Text} :
      Outdated options messages result → result.index = index →
        Cleared index (.tool result.toolCallId result.content)
          (.tool result.toolCallId (.plain placeholder))
  | inputs {message : Message} : options.clearToolInputs = true →
      Cleared index message
        (elideInputs ((clearable options messages).map (·.toolCallId)) message)

theorem cleared_clearedBuffer
    (results : settled.map (·.result) = clearable options messages) (index : Nat)
    (message : Message) (there : messages[index]? = some message) :
    ∃ message', (clearedBuffer options messages settled)[index]? = some message' ∧
      Cleared options messages index message message' := by
  have ids : settled.map (·.result.toolCallId) =
      (clearable options messages).map (·.toolCallId) := by
    rw [← results, List.map_map]
    rfl
  refine ⟨_, by rw [clearedBuffer, List.getElem?_map, List.getElem?_mapIdx, there]; rfl, ?_⟩
  rw [replaceResult]
  split
  · rename_i replacement found
    have listed := List.mem_of_find?_eq_some found
    have matched := List.find?_some found
    have here : replacement.result.index = index := beq_iff_eq.mp matched
    have stands := settled_stands options messages results replacement listed
    rw [here, there] at stands
    cases stands
    rw [withInputs_tool]
    refine .result (outdated_of_clearable options messages ?_) here
    rw [← results]
    exact List.mem_map_of_mem listed
  · rw [withInputs, ids]
    split
    · rename_i asked
      exact .inputs asked
    · exact .same

/-- A clearing keeps every message in its place and changes old results of tools that are not
excluded, and the inputs of their calls; a second one clears nothing. It takes off at least
the tokens it reports exactly when the placeholders it leaves are small enough. -/
theorem clearOldToolResults_reclaims {options : ClearToolResultsOptions}
    (plain : options.placeholder = none) {counter : ContextTokenCounter}
    (additive : Additive counter) {messages : List Message}
    {outcome : ClearToolResultsOutcome}
    (cleared : clearOldToolResults options counter messages = .ok outcome) :
    outcome.messages.length = messages.length ∧
    (∀ index message, messages[index]? = some message →
      ∃ message', outcome.messages[index]? = some message' ∧
        Cleared options messages index message message') ∧
    clearOldToolResults options counter outcome.messages = .ok ⟨outcome.messages, [], 0⟩ ∧
    (countMessageTokens outcome.messages counter + outcome.reclaimedTokens ≤
        countMessageTokens messages counter ↔
      (Commits options counter messages → ∀ settled,
        (drafts options counter messages).mapM (externalizeResult options) = .ok settled →
          Fits options counter messages settled)) ∧
    (options.externalize = none → options.clearToolInputs = false →
      (countMessageTokens outcome.messages counter + outcome.reclaimedTokens ≤
          countMessageTokens messages counter ↔
        (Commits options counter messages → ∀ draft ∈ drafts options counter messages,
          afterTokens counter draft ≤ draft.info.clearedTokens))) := by
  have reclaims : countMessageTokens outcome.messages counter + outcome.reclaimedTokens ≤
        countMessageTokens messages counter ↔
      (Commits options counter messages → ∀ settled,
        (drafts options counter messages).mapM (externalizeResult options) = .ok settled →
          Fits options counter messages settled) := by
    rcases clearing_cases cleared with ⟨idle, rfl⟩ | ⟨commits, settled, externalized, same, -, sum⟩
    · exact iff_of_true le_rfl fun commits => absurd commits idle
    · rw [same, sum, reclaims_iff_fits options messages additive
        (settled_results options counter messages externalized)]
      constructor
      · intro fits _ other answered
        cases externalized.symm.trans answered
        exact fits
      · exact fun fits => fits commits settled externalized
  have second : clearOldToolResults options counter outcome.messages =
      .ok ⟨outcome.messages, [], 0⟩ := by
    rcases clearing_cases cleared with ⟨idle, rfl⟩ | ⟨commits, settled, externalized, same, -⟩
    · exact cleared
    · have none : clearable options outcome.messages = [] := by
        rw [same]
        refine clearable_clearedBuffer options messages
          (settled_results options counter messages externalized)
          (settled_marked options counter messages plain externalized) fun empty => ?_
        exact commits (Or.inl (by rw [empty]; rfl))
      unfold clearOldToolResults
      rw [none]
      exact if_pos (Or.inl rfl)
  have places : ∀ index message, messages[index]? = some message →
      ∃ message', outcome.messages[index]? = some message' ∧
        Cleared options messages index message message' := by
    rcases clearing_cases cleared with ⟨idle, rfl⟩ | ⟨commits, settled, externalized, same, -⟩
    · exact fun index message there => ⟨message, there, .same⟩
    · rw [same]
      exact cleared_clearedBuffer options messages
        (settled_results options counter messages externalized)
  refine ⟨?_, places, second, reclaims, fun noSpill noInputs => ?_⟩
  · rcases clearing_cases cleared with ⟨-, rfl⟩ | ⟨-, settled, -, same, -⟩
    · rfl
    · rw [same, List.length_map, List.length_mapIdx]
  · rw [reclaims, fits_plain options counter messages noSpill noInputs]

end Clearing

/-- A quarter of a token for each code unit. -/
def quarters : ContextTokenCounter := { countText := fun text => (text.length + 3) / 4 }

theorem quarters_additive : Additive quarters := by
  intro messages others
  rw [countMessageTokens, countMessageTokens, countMessageTokens]
  exact (congrArg List.sum List.map_append).trans List.sum_append

def answer (text : String) : List Message := [.tool (ascii "c1") (.plain (literal text))]

def keepNone : ClearToolResultsOptions := { keepToolUses := some 0 }

/-- The last result is kept, and those of `notes` are excluded. -/
def keepOne : ClearToolResultsOptions :=
  { keepToolUses := some 1, excludeTools := [ascii "notes"] }

def answered : Content := .plain <| literal
  "seven rows of the quarterly report, each with its amount, its currency and its date"

def threeResults : List Message :=
  [.assistant (.plain []) (some [⟨ascii "c1", ascii "report", []⟩,
      ⟨ascii "c2", ascii "notes", []⟩, ⟨ascii "c3", ascii "report", []⟩]) none,
    .tool (ascii "c1") answered, .tool (ascii "c2") answered, .tool (ascii "c3") answered]

set_option maxRecDepth 20000 in
theorem answered_clears : (clearOldToolResults keepOne quarters threeResults).toOption.map
    (·.clearedIndices) = some [1] := by
  decide

set_option maxRecDepth 20000 in
theorem answered_reclaims : ∃ outcome,
    clearOldToolResults keepOne quarters threeResults = .ok outcome ∧
      outcome.clearedIndices = [1] ∧
      countMessageTokens outcome.messages quarters + outcome.reclaimedTokens ≤
        countMessageTokens threeResults quarters := by
  have clears := answered_clears
  cases cleared : clearOldToolResults keepOne quarters threeResults with
  | error =>
    rw [cleared] at clears
    cases clears
  | ok outcome =>
    rw [cleared] at clears
    refine ⟨outcome, rfl, Option.some.inj clears, ?_⟩
    refine ((clearOldToolResults_reclaims rfl quarters_additive cleared).2.2.2.2
      rfl rfl).mpr fun _ => ?_
    decide

def grown (messages : List Message) (outcome : ClearToolResultsOutcome) : Bool :=
  countMessageTokens messages quarters <
    countMessageTokens outcome.messages quarters + outcome.reclaimedTokens

set_option maxRecDepth 20000 in
/-- The placeholder of a short result is longer than it is. -/
theorem ok_grows : (clearOldToolResults keepNone quarters (answer "ok")).toOption.map
    (grown (answer "ok")) = some true := by
  decide

end Graphorin.Memory.Compaction
