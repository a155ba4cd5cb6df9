import Graphorin.Provider.OpenAiShaped

namespace Graphorin.Provider

open Audit RunState Lib

/-! A message, and the ways in which a server may cut it into chunks. -/

def OpenAIMessage.calls (message : OpenAIMessage) : List MessageToolCall :=
  message.tool_calls.getD []

def OpenAIChunk.fragments (chunk : OpenAIChunk) : List ToolCallFragment :=
  (chunk.choice.map fun choice => choice.delta.tool_calls).getD []

def contentsOf (chunks : List OpenAIChunk) : List JsText :=
  chunks.filterMap fun chunk => chunk.choice.bind fun choice => choice.delta.content

def fragmentsOf (chunks : List OpenAIChunk) : List ToolCallFragment :=
  chunks.flatMap OpenAIChunk.fragments

def reasonsOf (chunks : List OpenAIChunk) : List JsText :=
  chunks.filterMap fun chunk => chunk.choice.bind fun choice => choice.finish_reason

def usagesOf (chunks : List OpenAIChunk) : List UsageField :=
  chunks.map fun chunk => chunk.usage

def UsageField.isGiven : UsageField → Bool
  | .given _ => true
  | _ => false

def ofIndex (index : Nat) (fragments : List ToolCallFragment) : List ToolCallFragment :=
  fragments.filter fun fragment => fragment.index == some index

def argumentsOf (fragments : List ToolCallFragment) : JsText :=
  (fragments.map fun fragment => fragment.arguments.getD []).flatten

def SplitsCall (call : MessageToolCall) : List ToolCallFragment → Prop
  | [] => False
  | first :: rest =>
    first.id = some call.id ∧ first.name = some call.name ∧
      (∀ fragment ∈ rest, fragment.id = none ∧ fragment.name = none) ∧
      argumentsOf (first :: rest) = call.arguments

def ClosedWith (reason : Option JsText) (chunks : List OpenAIChunk) : Prop :=
  ∃ before closing after choice,
    chunks = before ++ closing :: after ∧ closing.choice = some choice ∧
      choice.finish_reason = reason ∧ reason ≠ none ∧ reasonsOf before = [] ∧
      reasonsOf after = [] ∧ fragmentsOf after = []

structure Splits (message : OpenAIMessage) (chunks : List OpenAIChunk) : Prop where
  text : (contentsOf chunks).flatten = message.content.getD []
  indexed : ∀ fragment ∈ fragmentsOf chunks,
    ∃ index, fragment.index = some index ∧ index < message.calls.length
  calls : ∀ (index : Nat) (call : MessageToolCall), message.calls[index]? = some call →
    SplitsCall call (ofIndex index (fragmentsOf chunks))
  reason : reasonsOf chunks = [] ∨ ClosedWith message.finish_reason chunks
  usage : (usagesOf chunks).filter UsageField.isGiven =
    [message.usage].filter UsageField.isGiven

def nullAfter : List UsageField → Bool
  | [] => false
  | .given _ :: rest => rest.contains .null
  | _ :: rest => nullAfter rest

def textsIn (events : List ProviderEvent) : List JsText :=
  events.filterMap fun
    | .textDelta delta => some delta
    | _ => none

def startsIn (events : List ProviderEvent) : List (JsText × JsText) :=
  events.filterMap fun
    | .toolCallStart toolCallId toolName => some (toolCallId, toolName)
    | _ => none

def deltasIn (events : List ProviderEvent) : List (JsText × JsText) :=
  events.filterMap fun
    | .toolCallInputDelta toolCallId argsDelta => some (toolCallId, argsDelta)
    | _ => none

def endsIn (events : List ProviderEvent) : List (JsText × Json) :=
  events.filterMap fun
    | .toolCallEnd toolCallId finalArgs => some (toolCallId, finalArgs)
    | _ => none

def ofCall {α : Type} (id : JsText) (told : List (JsText × α)) : List α :=
  told.filterMap fun entry => if entry.1 = id then some entry.2 else none

/-- The indexes in the order in which their first fragments came. -/
def opened (keys : List Nat) : List ToolCallFragment → List Nat
  | [] => keys
  | fragment :: rest =>
    let index := fragment.index.getD 0
    opened (if index ∈ keys then keys else keys ++ [index]) rest

/-- The stream tells each call once and adds up to the answer in one piece; its calls come
in the order in which the server opened them. -/
structure Agrees (host : Host) (message : OpenAIMessage) (chunks : List OpenAIChunk)
    (events : List ProviderEvent) : Prop where
  starts : ∀ call ∈ message.calls, ofCall call.id (startsIn events) = [call.name]
  deltas : ∀ call ∈ message.calls, (ofCall call.id (deltasIn events)).flatten = call.arguments
  ends : ∀ call ∈ message.calls,
    ofCall call.id (endsIn events) = [parseFinalArgs host call.arguments]
  text : (collect events).textBuffer = (generateOpenAIShaped host message).text.getD []
  toolCalls : (collect events).finalCalls.Perm
    ((generateOpenAIShaped host message).toolCalls.getD [])
  inOrder : opened [] (fragmentsOf chunks) = List.range message.calls.length →
    (collect events).finalCalls = (generateOpenAIShaped host message).toolCalls.getD []
  finished : (collect events).finished =
    some ((generateOpenAIShaped host message).finishReason,
      (generateOpenAIShaped host message).usage)

/-- What it takes: calls with an id and a name, a finish reason on some chunk, and no null
usage after the usage. -/
structure Complete (message : OpenAIMessage) (chunks : List OpenAIChunk) : Prop where
  named : ∀ call ∈ message.calls, call.id ≠ [] ∧ call.name ≠ []
  closed : reasonsOf chunks ≠ [] ∨
    (message.calls = [] ∧ mapFinishReason message.finish_reason = .stop)
  counted : nullAfter (usagesOf chunks) = false ∨
    (mapOpenAIUsage message.usage).getD zeroUsage = zeroUsage

@[simp] theorem textsIn_append (events events' : List ProviderEvent) :
    textsIn (events ++ events') = textsIn events ++ textsIn events' :=
  List.filterMap_append

@[simp] theorem startsIn_append (events events' : List ProviderEvent) :
    startsIn (events ++ events') = startsIn events ++ startsIn events' :=
  List.filterMap_append

@[simp] theorem deltasIn_append (events events' : List ProviderEvent) :
    deltasIn (events ++ events') = deltasIn events ++ deltasIn events' :=
  List.filterMap_append

@[simp] theorem endsIn_append (events events' : List ProviderEvent) :
    endsIn (events ++ events') = endsIn events ++ endsIn events' :=
  List.filterMap_append

variable {α : Type}

@[simp] theorem ofCall_append (id : JsText) (told told' : List (JsText × α)) :
    ofCall id (told ++ told') = ofCall id told ++ ofCall id told' :=
  List.filterMap_append

theorem ofCall_cons (id : JsText) (entry : JsText × α) (told : List (JsText × α)) :
    ofCall id (entry :: told) =
      if entry.1 = id then entry.2 :: ofCall id told else ofCall id told := by
  by_cases same : entry.1 = id
  · simp [ofCall, same]
  · simp [ofCall, same]

variable {id : JsText}

theorem mem_ofCall {told : List (JsText × α)} {value : α} :
    value ∈ ofCall id told ↔ (id, value) ∈ told := by
  rw [ofCall, List.mem_filterMap]
  constructor
  · rintro ⟨entry, member, here⟩
    split at here
    · rename_i same
      cases here
      rw [← same]
      exact member
    · cases here
  · intro member
    exact ⟨(id, value), member, by rw [if_pos rfl]⟩

theorem ofCall_of_others {told : List (JsText × α)} (others : ∀ entry ∈ told, entry.1 ≠ id)
    : ofCall id told = [] := by
  rw [ofCall, List.filterMap_eq_nil_iff]
  intro entry member
  rw [if_neg (others entry member)]

theorem ofCall_of_only {told : List (JsText × α)} (only : ∀ entry ∈ told, entry.1 = id) :
    ofCall id told = told.map Prod.snd := by
  rw [ofCall, ← List.filterMap_eq_map]
  apply List.filterMap_congr
  intro entry member
  rw [if_pos (only entry member), Function.comp]

theorem ofCall_of_nodup {told : List (JsText × α)} {value : α}
    (distinct : (told.map Prod.fst).Nodup) (member : (id, value) ∈ told) :
    ofCall id told = [value] := by
  induction told with
  | nil => cases member
  | cons entry rest ih =>
    rw [List.map_cons, List.nodup_cons] at distinct
    rw [ofCall_cons]
    cases List.mem_cons.mp member with
    | inl here =>
      have others : ofCall id rest = [] := by
        apply ofCall_of_others
        intro other inside same
        exact distinct.1 (List.mem_map.mpr ⟨other, inside, by rw [same, ← here]⟩)
      rw [← here, if_pos rfl, others]
    | inr inside =>
      have apart : entry.1 ≠ id := by
        intro same
        exact distinct.1 (List.mem_map.mpr ⟨(id, value), inside, same.symm⟩)
      rw [if_neg apart]
      exact ih distinct.2 inside

inductive Stage (call : MessageToolCall) : Slot → List ToolCallFragment → Prop
  | waiting {fragments : List ToolCallFragment} (splits : SplitsCall call fragments) :
      Stage call {} fragments
  | going {slot : Slot} {rest : List ToolCallFragment}
      (id : slot.id = call.id) (name : slot.name = call.name)
      (started : slot.emittedStart = true)
      (unnamed : ∀ fragment ∈ rest, fragment.id = none ∧ fragment.name = none)
      (arguments : slot.args ++ argumentsOf rest = call.arguments) : Stage call slot rest

variable {call : MessageToolCall} {slot : Slot}

theorem Stage.done (stage : Stage call slot []) :
    slot = { id := call.id, name := call.name, args := call.arguments, emittedStart := true } := by
  cases stage with
  | waiting splits => cases splits
  | going id name started _ arguments =>
    rw [argumentsOf, List.map_nil, List.flatten_nil, List.append_nil] at arguments
    cases slot
    simp_all

structure Shows (call : MessageToolCall) (slot : Slot) (taken : Slot × List ProviderEvent) :
    Prop where
  starts : startsIn taken.2 = if slot.emittedStart then [] else [(call.id, call.name)]
  own : ∀ delta ∈ deltasIn taken.2, delta.1 = call.id
  arguments : taken.1.args = slot.args ++ ((deltasIn taken.2).map Prod.snd).flatten
  started : taken.1.emittedStart = true

theorem shows_of_take (named : call.id ≠ [] ∧ call.name ≠ [])
    (id : (slot.take fragment).id = call.id) (name : (slot.take fragment).name = call.name) :
    Shows call slot (takeFragment slot fragment) := by
  have kept : (slot.take fragment).emittedStart = slot.emittedStart := rfl
  have args : (slot.take fragment).args = slot.args ++ fragment.arguments.getD [] := rfl
  have starts : (slot.take fragment).starts = !slot.emittedStart := by
    rw [Slot.starts, id, name, kept]
    cases slot.emittedStart
    · simpa using named
    · rfl
  rcases fragment with ⟨index, fragmentId, fragmentName, arguments⟩
  cases slotStarted : slot.emittedStart <;> rcases arguments with _ | _ | ⟨first, rest⟩ <;>
    constructor <;>
    simp_all [takeFragment, startsIn, deltasIn]

theorem endsIn_takeFragment (slot : Slot) (fragment : ToolCallFragment) :
    endsIn (takeFragment slot fragment).2 = [] := by
  rcases fragment with ⟨index, fragmentId, fragmentName, _ | _ | ⟨first, rest⟩⟩ <;>
    simp only [takeFragment] <;> split <;> rfl

theorem Stage.take (stage : Stage call slot (fragment :: rest))
    (named : call.id ≠ [] ∧ call.name ≠ []) :
    Stage call (takeFragment slot fragment).1 rest ∧
      Shows call slot (takeFragment slot fragment) := by
  have adds : argumentsOf (fragment :: rest) =
      fragment.arguments.getD [] ++ argumentsOf rest := by
    simp [argumentsOf]
  cases stage with
  | waiting splits =>
    obtain ⟨id, name, unnamed, arguments⟩ := splits
    have id' : (Slot.take {} fragment).id = call.id := by
      simp [Slot.take, id, named.1]
    have name' : (Slot.take {} fragment).name = call.name := by
      simp [Slot.take, name]
    have shown := shows_of_take named id' name'
    exact ⟨.going id' name' shown.started unnamed (by rw [← arguments, adds]; rfl), shown⟩
  | going id name _ unnamed arguments =>
    obtain ⟨here, later⟩ := List.forall_mem_cons.mp unnamed
    have id' : (slot.take fragment).id = call.id := by
      simp [Slot.take, here.1, id]
    have name' : (slot.take fragment).name = call.name := by
      simp [Slot.take, here.2, name]
    have shown := shows_of_take named id' name'
    refine ⟨.going id' name' shown.started later ?_, shown⟩
    rw [← arguments, adds, ← List.append_assoc]
    rfl

theorem ofIndex_cons (index : Nat) (fragment : ToolCallFragment)
    (rest : List ToolCallFragment) :
    ofIndex index (fragment :: rest) =
      if fragment.index = some index then fragment :: ofIndex index rest
      else ofIndex index rest := by
  by_cases same : fragment.index = some index
  · simp [ofIndex, same]
  · simp [ofIndex, same]

theorem slotAt_set (buffer : OrderedMap Nat Slot) (index other : Nat) (slot : Slot) :
    slotAt (buffer.set index slot) other = if other = index then slot else slotAt buffer other := by
  rw [slotAt, OrderedMap.get_set]
  by_cases same : other = index
  · simp [same]
  · simp [same, slotAt]

theorem takeFragments_append (buffer : OrderedMap Nat Slot)
    (fragments fragments' : List ToolCallFragment) :
    takeFragments buffer (fragments ++ fragments') =
      ((takeFragments (takeFragments buffer fragments).1 fragments').1,
        (takeFragments buffer fragments).2 ++
          (takeFragments (takeFragments buffer fragments).1 fragments').2) := by
  induction fragments generalizing buffer with
  | nil => rfl
  | cons fragment rest ih => simp [takeFragments, ih]

theorem endsIn_takeFragments (buffer : OrderedMap Nat Slot)
    (fragments : List ToolCallFragment) : endsIn (takeFragments buffer fragments).2 = [] := by
  induction fragments generalizing buffer with
  | nil => rfl
  | cons fragment rest ih =>
    rw [takeFragments, endsIn_append, endsIn_takeFragment, ih, List.nil_append]

theorem keys_takeFragments (buffer : OrderedMap Nat Slot)
    (fragments : List ToolCallFragment) :
    (takeFragments buffer fragments).1.keys = opened buffer.keys fragments := by
  induction fragments generalizing buffer with
  | nil => rfl
  | cons fragment rest ih =>
    rw [takeFragments, opened, ih]
    congr 1
    split
    · rename_i known
      exact OrderedMap.keys_set known _
    · rename_i fresh
      rw [OrderedMap.keys, OrderedMap.set]
      simp only [if_neg fresh, List.map_append]
      rfl

theorem named_of_start (start : (id, name) ∈ startsIn (takeFragments buffer fragments).2) :
    id ≠ [] ∧ name ≠ [] := by
  induction fragments generalizing buffer with
  | nil => cases start
  | cons fragment rest ih =>
    rw [takeFragments, startsIn_append, List.mem_append] at start
    cases start with
    | inr later => exact ih later
    | inl now =>
      rw [takeFragment, startsIn_append, List.mem_append] at now
      cases now with
      | inl start =>
        split at start
        · rename_i starts
          obtain ⟨rfl, rfl⟩ : (id, name) = (_, _) := List.mem_singleton.mp start
          simp only [Slot.starts, Bool.and_eq_true, Bool.not_eq_true',
            List.isEmpty_eq_false_iff] at starts
          exact ⟨starts.1.2, starts.2⟩
        · cases start
      | inr delta =>
        rcases arguments : fragment.arguments with _ | _ | ⟨first, more⟩ <;>
          rw [arguments] at delta <;> cases delta

section Calls

variable {calls : List MessageToolCall}

structure Staged (calls : List MessageToolCall) (buffer : OrderedMap Nat Slot)
    (fragments : List ToolCallFragment) : Prop where
  indexed : ∀ fragment ∈ fragments,
    ∃ index, fragment.index = some index ∧ index < calls.length
  stages : ∀ (index : Nat) (call : MessageToolCall), calls[index]? = some call →
    Stage call (slotAt buffer index) (ofIndex index fragments)

theorem Staged.take (staged : Staged calls buffer (fragment :: rest))
    (named : ∀ call ∈ calls, call.id ≠ [] ∧ call.name ≠ []) :
    ∃ index call, fragment.index.getD 0 = index ∧ calls[index]? = some call ∧
      Shows call (slotAt buffer index) (takeFragment (slotAt buffer index) fragment) ∧
      Staged calls (buffer.set index (takeFragment (slotAt buffer index) fragment).1) rest := by
  obtain ⟨index, here, inside⟩ := staged.indexed fragment List.mem_cons_self
  obtain ⟨call, known⟩ : ∃ call, calls[index]? = some call := ⟨_, List.getElem?_eq_getElem inside⟩
  have stage := staged.stages index call known
  rw [ofIndex_cons, if_pos here] at stage
  obtain ⟨next, shown⟩ := stage.take (named call (List.mem_of_getElem? known))
  refine ⟨index, call, by rw [here, Option.getD_some], known, shown, ?_, ?_⟩
  · intro fragment' member
    exact staged.indexed fragment' (List.mem_cons_of_mem _ member)
  · intro other call' known'
    rw [slotAt_set]
    split
    · rename_i same
      subst same
      rw [known] at known'
      cases known'
      exact next
    · rename_i apart
      have before := staged.stages other call' known'
      rwa [ofIndex_cons, if_neg (by rw [here]; simpa using Ne.symm apart)] at before

variable {fragments : List ToolCallFragment}

theorem shown_of_staged {buffer : OrderedMap Nat Slot}
    (staged : Staged calls buffer fragments) (distinct : (calls.map (·.id)).Nodup)
    (named : ∀ call ∈ calls, call.id ≠ [] ∧ call.name ≠ []) {index : Nat}
    {call : MessageToolCall} (known : calls[index]? = some call) :
    let taken := takeFragments buffer fragments
    ofCall call.id (startsIn taken.2) =
        (if (slotAt buffer index).emittedStart then [] else [call.name]) ∧
      (slotAt buffer index).args ++ (ofCall call.id (deltasIn taken.2)).flatten =
        call.arguments ∧
      slotAt taken.1 index =
        { id := call.id, name := call.name, args := call.arguments, emittedStart := true } := by
  induction fragments generalizing buffer with
  | nil =>
    have done := (staged.stages index call known).done
    refine ⟨?_, ?_, done⟩
    · rw [done]
      rfl
    · rw [done]
      exact List.append_nil _
  | cons fragment rest ih =>
    obtain ⟨index', call', indexIs, known', shown, next⟩ := staged.take named
    obtain ⟨starts, deltas, slot⟩ := ih next
    rw [slotAt_set] at starts deltas
    rw [takeFragments, indexIs]
    simp only [startsIn_append, deltasIn_append, ofCall_append, List.flatten_append]
    by_cases same : index = index'
    · subst same
      rw [known] at known'
      cases known'
      rw [if_pos rfl, shown.started, if_pos rfl] at starts
      rw [if_pos rfl, shown.arguments, ← ofCall_of_only shown.own, List.append_assoc] at deltas
      refine ⟨?_, deltas, slot⟩
      rw [starts, shown.starts, List.append_nil]
      split
      · rfl
      · rw [ofCall_cons, if_pos rfl]
        rfl
    · have apart : call'.id ≠ call.id := by
        intro equal
        apply same
        have inside := (List.getElem?_eq_some_iff.mp known).1
        refine (List.getElem?_inj (by rwa [List.length_map]) distinct).mp ?_
        rw [List.getElem?_map, List.getElem?_map, known, known', Option.map_some,
          Option.map_some, equal]
      rw [if_neg same] at starts deltas
      have noStart : ofCall call.id
          (startsIn (takeFragment (slotAt buffer index') fragment).2) = [] := by
        rw [shown.starts]
        split
        · rfl
        · rw [ofCall_cons, if_neg apart]
          rfl
      have noDelta : ofCall call.id
          (deltasIn (takeFragment (slotAt buffer index') fragment).2) = [] :=
        ofCall_of_others fun delta member => by
          rw [shown.own delta member]
          exact apart
      rw [noStart, noDelta]
      exact ⟨starts, deltas, slot⟩

theorem opened_inside
    (indexed : ∀ fragment ∈ fragments, ∃ index, fragment.index = some index ∧ index < bound)
    (bounded : ∀ index ∈ keys, index < bound) :
    ∀ index ∈ opened keys fragments, index < bound := by
  induction fragments generalizing keys with
  | nil => exact bounded
  | cons fragment rest ih =>
    obtain ⟨here, later⟩ := List.forall_mem_cons.mp indexed
    obtain ⟨index, indexIs, below⟩ := here
    apply ih later
    intro other member
    rw [indexIs, Option.getD_some] at member
    split at member
    · exact bounded other member
    · cases List.mem_append.mp member with
      | inl before => exact bounded other before
      | inr new =>
        rw [List.mem_singleton.mp new]
        exact below

theorem read_in_range (calls : List MessageToolCall) :
    (List.range calls.length).filterMap (fun index => calls[index]?) = calls := by
  induction calls with
  | nil => rfl
  | cons call _ ih =>
    rw [List.length_cons, List.range_succ_eq_map, List.filterMap_cons, List.filterMap_map]
    exact congrArg (call :: ·) ih

theorem opened_perm (staged : Staged calls .empty fragments)
    (distinct : (calls.map (·.id)).Nodup)
    (named : ∀ call ∈ calls, call.id ≠ [] ∧ call.name ≠ []) :
    (opened [] fragments).Perm (List.range calls.length) := by
  have keys : (takeFragments .empty fragments).1.keys = opened [] fragments :=
    keys_takeFragments .empty fragments
  refine (List.perm_ext_iff_of_nodup ?_ List.nodup_range).mpr ?_
  · rw [← keys]
    exact (takeFragments .empty fragments).1.distinct
  · intro index
    rw [List.mem_range]
    constructor
    · exact opened_inside staged.indexed (fun _ member => absurd member List.not_mem_nil) index
    · intro below
      have slot := (shown_of_staged staged distinct named
        (List.getElem?_eq_getElem below)).2.2
      rw [← keys, OrderedMap.mem_keys]
      cases here : (takeFragments .empty fragments).1.get index with
      | some value => exact ⟨value, rfl⟩
      | none =>
        rw [slotAt, here] at slot
        have started := congrArg Slot.emittedStart slot
        cases started

/-- The buffer then holds the calls in the order in which they were opened. -/
theorem entries_of_staged (staged : Staged calls .empty fragments)
    (distinct : (calls.map (·.id)).Nodup)
    (named : ∀ call ∈ calls, call.id ≠ [] ∧ call.name ≠ []) (host : Host) :
    (takeFragments .empty fragments).1.entries.map (endEvent host) =
      ((opened [] fragments).filterMap fun index => calls[index]?).map fun call =>
        .toolCallEnd call.id (parseFinalArgs host call.arguments) := by
  have keys : (takeFragments .empty fragments).1.keys = opened [] fragments :=
    keys_takeFragments .empty fragments
  have entries : ∀ entry ∈ (takeFragments .empty fragments).1.entries,
      some (endEvent host entry) = calls[entry.1]?.map fun call =>
        .toolCallEnd call.id (parseFinalArgs host call.arguments) := by
    intro entry member
    have below : entry.1 < calls.length := by
      apply opened_inside staged.indexed fun _ member => absurd member List.not_mem_nil
      rw [← keys]
      exact List.mem_map_of_mem member
    have slot := (shown_of_staged staged distinct named
      (List.getElem?_eq_getElem below)).2.2
    rw [slotAt, OrderedMap.get_eq_some.mpr member, Option.getD_some] at slot
    rw [endEvent, slot, List.getElem?_eq_getElem below]
    rfl
  rw [← List.filterMap_eq_map, List.map_filterMap, ← keys, OrderedMap.keys,
    List.filterMap_map]
  exact List.filterMap_congr entries

end Calls

section Chunks

variable (host : Host)

variable (text : Option JsText)

theorem startsIn_text : startsIn (textEvents text) = [] := by
  rcases text with _ | _ | _ <;> rfl

theorem startsIn_reasoning : startsIn (reasoningEvents text) = [] := by
  rcases text with _ | _ | _ <;> rfl

theorem deltasIn_text : deltasIn (textEvents text) = [] := by
  rcases text with _ | _ | _ <;> rfl

theorem deltasIn_reasoning : deltasIn (reasoningEvents text) = [] := by
  rcases text with _ | _ | _ <;> rfl

theorem endsIn_text : endsIn (textEvents text) = [] := by
  rcases text with _ | _ | _ <;> rfl

theorem endsIn_reasoning : endsIn (reasoningEvents text) = [] := by
  rcases text with _ | _ | _ <;> rfl

theorem textsIn_text : (textsIn (textEvents text)).flatten = text.getD [] := by
  rcases text with _ | _ | ⟨first, rest⟩
  · rfl
  · rfl
  · exact List.append_nil _

theorem textsIn_reasoning : textsIn (reasoningEvents text) = [] := by
  rcases text with _ | _ | _ <;> rfl

theorem textsIn_takeFragment (slot : Slot) (fragment : ToolCallFragment) :
    textsIn (takeFragment slot fragment).2 = [] := by
  rcases fragment with ⟨index, fragmentId, fragmentName, _ | _ | ⟨first, rest⟩⟩ <;>
    simp only [takeFragment] <;> split <;> rfl

theorem textsIn_takeFragments (buffer : OrderedMap Nat Slot)
    (fragments : List ToolCallFragment) : textsIn (takeFragments buffer fragments).2 = [] := by
  induction fragments generalizing buffer with
  | nil => rfl
  | cons fragment rest ih =>
    rw [takeFragments, textsIn_append, textsIn_takeFragment, ih, List.nil_append]

theorem only_ends (entries : List (Nat × Slot)) :
    textsIn (entries.map (endEvent host)) = [] ∧ startsIn (entries.map (endEvent host)) = [] ∧
      deltasIn (entries.map (endEvent host)) = [] := by
  induction entries with
  | nil => exact ⟨rfl, rfl, rfl⟩
  | cons entry rest ih => exact ih

structure Reads (state : StreamState) (chunks : List OpenAIChunk)
    (taken : StreamState × List ProviderEvent) : Prop where
  buffer : taken.1.toolCallBuffer =
    (takeFragments state.toolCallBuffer (fragmentsOf chunks)).1
  usage : taken.1.usage = (usagesOf chunks).foldl takeUsage state.usage
  texts : (textsIn taken.2).flatten = (contentsOf chunks).flatten
  starts : startsIn taken.2 =
    startsIn (takeFragments state.toolCallBuffer (fragmentsOf chunks)).2
  deltas : deltasIn taken.2 =
    deltasIn (takeFragments state.toolCallBuffer (fragmentsOf chunks)).2
  open_ : reasonsOf chunks = [] →
    endsIn taken.2 = [] ∧ taken.1.finishReason = state.finishReason

theorem reads_chunk (state : StreamState) (chunk : OpenAIChunk) :
    Reads state [chunk] (takeChunk host state chunk) := by
  have usage : usagesOf [chunk] = [chunk.usage] := rfl
  cases choice : chunk.choice with
  | none =>
    have fragments : fragmentsOf [chunk] = [] := by
      simp [fragmentsOf, OpenAIChunk.fragments, choice]
    have taken : takeChunk host state chunk =
        ({ state with usage := takeUsage state.usage chunk.usage }, []) := by
      rw [takeChunk]
      simp only [choice]
    rw [taken]
    constructor <;> simp [fragments, takeFragments, usage, textsIn, startsIn, deltasIn, endsIn,
      contentsOf, choice]
  | some value =>
    have fragments : fragmentsOf [chunk] = value.delta.tool_calls := by
      simp [fragmentsOf, OpenAIChunk.fragments, choice]
    have contents : (contentsOf [chunk]).flatten = value.delta.content.getD [] := by
      cases content : value.delta.content <;> simp [contentsOf, choice, content]
    obtain ⟨noText, noStart, noDelta⟩ :=
      only_ends host (takeFragments state.toolCallBuffer value.delta.tool_calls).1.entries
    cases reason : value.finish_reason with
    | none =>
      constructor <;> simp [takeChunk, choice, reason, fragments, contents, usage,
        startsIn_text, startsIn_reasoning, deltasIn_text, deltasIn_reasoning, endsIn_text,
        endsIn_reasoning, textsIn_reasoning, textsIn_takeFragments, endsIn_takeFragments,
        textsIn_text]
    | some =>
      constructor <;> simp [takeChunk, choice, reason, fragments, contents, usage,
        startsIn_text, startsIn_reasoning, deltasIn_text, deltasIn_reasoning,
        textsIn_reasoning, textsIn_takeFragments, textsIn_text, noText, noStart, noDelta,
        reasonsOf]

theorem Reads.append (first : Reads state chunks taken)
    (second : Reads taken.1 chunks' taken') :
    Reads state (chunks ++ chunks') (taken'.1, taken.2 ++ taken'.2) := by
  have fragments : fragmentsOf (chunks ++ chunks') = fragmentsOf chunks ++ fragmentsOf chunks' :=
    List.flatMap_append
  have contents : contentsOf (chunks ++ chunks') = contentsOf chunks ++ contentsOf chunks' :=
    List.filterMap_append
  have reasons : reasonsOf (chunks ++ chunks') = reasonsOf chunks ++ reasonsOf chunks' :=
    List.filterMap_append
  have usages : usagesOf (chunks ++ chunks') = usagesOf chunks ++ usagesOf chunks' :=
    List.map_append
  constructor
  · rw [fragments, takeFragments_append, second.buffer, first.buffer]
  · rw [usages, List.foldl_append, second.usage, first.usage]
  · rw [textsIn_append, contents, List.flatten_append, List.flatten_append, first.texts,
      second.texts]
  · rw [fragments, takeFragments_append, startsIn_append, startsIn_append, first.starts,
      second.starts, first.buffer]
  · rw [fragments, takeFragments_append, deltasIn_append, deltasIn_append, first.deltas,
      second.deltas, first.buffer]
  · intro none
    rw [reasons, List.append_eq_nil_iff] at none
    obtain ⟨firstEnds, firstReason⟩ := first.open_ none.1
    obtain ⟨secondEnds, secondReason⟩ := second.open_ none.2
    rw [endsIn_append, firstEnds, secondEnds, secondReason, firstReason]
    exact ⟨rfl, rfl⟩

theorem reads_chunks (state : StreamState) (chunks : List OpenAIChunk) :
    Reads state chunks (takeChunks host state chunks) := by
  induction chunks generalizing state with
  | nil => exact ⟨rfl, rfl, rfl, rfl, rfl, fun _ => ⟨rfl, rfl⟩⟩
  | cons chunk _ ih => exact (reads_chunk host state chunk).append (ih _)

theorem takeChunks_append (state : StreamState) (chunks chunks' : List OpenAIChunk) :
    takeChunks host state (chunks ++ chunks') =
      ((takeChunks host (takeChunks host state chunks).1 chunks').1,
        (takeChunks host state chunks).2 ++
          (takeChunks host (takeChunks host state chunks).1 chunks').2) := by
  induction chunks generalizing state with
  | nil => rfl
  | cons chunk rest ih => simp [takeChunks, ih]

end Chunks

theorem textBuffer_collected (state : ProviderEventCollector) (events : List ProviderEvent) :
    (events.foldl handleProviderEvent state).textBuffer =
      state.textBuffer ++ (textsIn events).flatten := by
  induction events generalizing state with
  | nil => exact (List.append_nil _).symm
  | cons event _ ih =>
    rw [List.foldl_cons, ih]
    cases event with
    | textDelta => exact List.append_assoc ..
    | toolCallEnd =>
      rw [handleProviderEvent]
      split <;> rfl
    | _ => rfl

theorem calls_collected (state : ProviderEventCollector) (events : List ProviderEvent) :
    (events.foldl handleProviderEvent state).calls =
      (startsIn events).reverse ++ state.calls := by
  induction events generalizing state with
  | nil => rfl
  | cons event rest ih =>
    rw [List.foldl_cons, ih]
    cases event with
    | toolCallStart toolCallId toolName =>
      show _ = ((toolCallId, toolName) :: startsIn rest).reverse ++ _
      rw [List.reverse_cons, List.append_assoc]
      rfl
    | toolCallEnd =>
      rw [handleProviderEvent]
      split <;> rfl
    | _ => rfl

theorem finalCalls_without_end (quiet : endsIn events = []) (state : ProviderEventCollector) :
    (events.foldl handleProviderEvent state).finalCalls = state.finalCalls := by
  induction events generalizing state with
  | nil => rfl
  | cons event _ ih =>
    cases event with
    | toolCallEnd => cases quiet
    | _ =>
      rw [List.foldl_cons, ih quiet]
      rfl

theorem finalCalls_of_ends (host : Host) {calls : List MessageToolCall}
    (state : ProviderEventCollector) (started : ∀ call ∈ calls,
      state.calls.find? (fun known => known.1 == call.id) = some (call.id, call.name)) :
    ((calls.map fun call => ProviderEvent.toolCallEnd call.id
      (parseFinalArgs host call.arguments)).foldl handleProviderEvent state).finalCalls =
      state.finalCalls ++ calls.map (toolCallOf host) := by
  induction calls generalizing state with
  | nil => exact (List.append_nil _).symm
  | cons call _ ih =>
    obtain ⟨here, later⟩ := List.forall_mem_cons.mp started
    have handled : handleProviderEvent state
        (.toolCallEnd call.id (parseFinalArgs host call.arguments)) =
        { state with finalCalls := state.finalCalls ++ [toolCallOf host call] } := by
      simp only [handleProviderEvent, here]
      rfl
    rw [List.map_cons, List.foldl_cons, handled]
    refine (ih { state with finalCalls := state.finalCalls ++ [toolCallOf host call] }
      later).trans ?_
    rw [List.append_assoc]
    rfl

theorem found_of_started {starts : List (JsText × JsText)} {id name : JsText}
    (once : ofCall id starts = [name]) :
    starts.reverse.find? (fun known => known.1 == id) = some (id, name) := by
  cases found : starts.reverse.find? fun known => known.1 == id with
  | none =>
    rw [List.find?_eq_none] at found
    have member : (id, name) ∈ starts := by
      rw [← mem_ofCall, once]
      exact List.mem_singleton.mpr rfl
    exact absurd (beq_self_eq_true id) (found (id, name) (List.mem_reverse.mpr member))
  | some entry =>
    obtain ⟨id', name'⟩ := entry
    have same : id' = id := by simpa using List.find?_some found
    subst same
    have member : (id', name') ∈ starts :=
      List.mem_reverse.mp (List.mem_of_find?_eq_some found)
    rw [← mem_ofCall, once, List.mem_singleton] at member
    rw [member]

variable {usages : List UsageField}

theorem foldl_takeUsage_of_none (none_ : usages.filter UsageField.isGiven = [])
    (usage : Option Usage) :
    usages.foldl takeUsage usage = if usages.contains .null then none else usage := by
  induction usages generalizing usage with
  | nil => rfl
  | cons field _ ih =>
    cases field with
    | given => simp [UsageField.isGiven] at none_
    | absent => simpa [takeUsage, UsageField.isGiven] using ih none_ usage
    | null =>
      rw [List.foldl_cons, ih none_]
      simp [takeUsage, mapOpenAIUsage]

theorem foldl_takeUsage_of_given (once : usages.filter UsageField.isGiven = [.given value])
    (usage : Option Usage) :
    usages.foldl takeUsage usage =
      if nullAfter usages then none else mapOpenAIUsage (.given value) := by
  induction usages generalizing usage with
  | nil => cases once
  | cons field _ ih =>
    cases field with
    | given =>
      rw [List.filter_cons_of_pos rfl, List.cons.injEq] at once
      rw [List.foldl_cons, foldl_takeUsage_of_none once.2, once.1]
      rfl
    | absent => exact ih once _
    | null => exact ih once _

theorem usage_left {message : OpenAIMessage}
    (once : usages.filter UsageField.isGiven = [message.usage].filter UsageField.isGiven) :
    (usages.foldl takeUsage none).getD zeroUsage = (mapOpenAIUsage message.usage).getD zeroUsage ↔
      nullAfter usages = false ∨ (mapOpenAIUsage message.usage).getD zeroUsage = zeroUsage := by
  cases given : message.usage with
  | given =>
    rw [given] at once
    rw [foldl_takeUsage_of_given once]
    cases nullAfter usages with
    | false => simp
    | true => simp [eq_comm]
  | absent =>
    rw [given] at once
    rw [foldl_takeUsage_of_none once, ite_self]
    simp [mapOpenAIUsage]
  | null =>
    rw [given] at once
    rw [foldl_takeUsage_of_none once, ite_self]
    simp [mapOpenAIUsage]

end Graphorin.Provider
