import Mathlib.Data.List.Basic
import Graphorin.Agent.Types

/-!
# The seed of a handoff

`sanitizeHandoffSeed` cuts a transcript for the child: calls that were never answered go, and
answers whose call was cut. The history of one id in a transcript is the order in which it is
announced and answered, and each pass acts on that history alone.
-/

namespace Graphorin.Agent.Handoff

inductive Content (π : Type) where
  | text (text : String)
  | parts (parts : List π)

inductive Message (π : Type) where
  | system (content : String)
  | user (content : Content π)
  | assistant (content : Content π) (toolCalls : Option (List ToolCall))
      (agentId : Option String)
  | tool (toolCallId : String) (content : Content π)

variable {π : Type}

def Content.nonempty : Content π → Bool
  | .text content => 0 < content.length
  | .parts content => 0 < content.length

structure Survey where
  announcedSoFar : List String
  resolved : List String

def Survey.see (survey : Survey) : Message π → Survey
  | .assistant _ (some toolCalls) _ =>
    { survey with
      announcedSoFar := survey.announcedSoFar ++ toolCalls.map (·.toolCallId) }
  | .tool toolCallId _ =>
    if toolCallId ∈ survey.announcedSoFar then
      { survey with resolved := survey.resolved ++ [toolCallId] }
    else survey
  | _ => survey

def survey (messages : List (Message π)) : Survey :=
  messages.foldl Survey.see ⟨[], []⟩

def keep (resolved : List String) : List (Message π) → List String → List (Message π)
  | [], _ => []
  | .tool toolCallId content :: rest, keptAnnounced =>
    if toolCallId ∈ keptAnnounced then
      .tool toolCallId content :: keep resolved rest keptAnnounced
    else keep resolved rest keptAnnounced
  | .assistant content (some toolCalls) agentId :: rest, keptAnnounced =>
    let kept := toolCalls.filter fun call => call.toolCallId ∈ resolved
    let later := keep resolved rest (keptAnnounced ++ kept.map (·.toolCallId))
    if kept.length = toolCalls.length then
      .assistant content (some toolCalls) agentId :: later
    else if kept.length = 0 ∧ content.nonempty = false then later
    else
      .assistant content (if 0 < kept.length then some kept else none) agentId :: later
  | message :: rest, keptAnnounced => message :: keep resolved rest keptAnnounced

def sanitizeHandoffSeed (messages : List (Message π)) : List (Message π) :=
  keep (survey messages).resolved messages []

inductive Mark where
  | announced
  | answered
  deriving DecidableEq

namespace Message

def marks (id : String) : Message π → List Mark
  | .assistant _ (some toolCalls) _ =>
    List.replicate (toolCalls.countP fun call => call.toolCallId = id) .announced
  | .tool toolCallId _ => if toolCallId = id then [.answered] else []
  | _ => []

/-- The message without what belongs to its calls; nothing of a tool message, nor of an
assistant message that says nothing. -/
def spoken : Message π → Option (Message π)
  | .assistant content _ agentId =>
    if content.nonempty then some (.assistant content none agentId) else none
  | .tool _ _ => none
  | message => some message

end Message

def history (id : String) (messages : List (Message π)) : List Mark :=
  messages.flatMap (Message.marks id)

@[simp] theorem history_nil (id : String) : history id ([] : List (Message π)) = [] := rfl

@[simp] theorem history_cons (id : String) (message : Message π)
    (rest : List (Message π)) :
    history id (message :: rest) = message.marks id ++ history id rest := rfl

/-- What of a history counts: answers before the first announcement do not. -/
def live (marks : List Mark) : List Mark := marks.dropWhile (· = .answered)

theorem live_append_announced (before after : List Mark) :
    live (before ++ .announced :: after) = live before ++ .announced :: after := by
  induction before with
  | nil => rfl
  | cons mark _ ih =>
    cases mark with
    | announced => rfl
    | answered => exact ih

theorem live_suffix (marks : List Mark) : ∃ before, marks = before ++ live marks :=
  ⟨marks.takeWhile (· = .answered), (List.takeWhile_append_dropWhile).symm⟩

theorem live_answered (before after : List Mark)
    (split : live marks = before ++ .answered :: after) : .announced ∈ before := by
  cases before with
  | nil =>
    have first := List.head?_dropWhile_not (fun mark : Mark => decide (mark = .answered)) marks
    rw [← live, split] at first
    simp at first
  | cons mark =>
    cases mark with
    | announced => exact List.mem_cons_self
    | answered =>
      have first :=
        List.head?_dropWhile_not (fun mark : Mark => decide (mark = .answered)) marks
      rw [← live, split] at first
      simp at first

/-- The id was answered after it was announced. -/
def Answered (id : String) (messages : List (Message π)) : Prop :=
  .answered ∈ live (history id messages)

/-- Every announcement is answered before the next one. -/
def Settled (marks : List Mark) : Prop :=
  ∀ before after, marks = before ++ .announced :: after → ∃ later, after = .answered :: later

theorem settled_live (marks : List Mark) : Settled (live marks) ↔ Settled marks := by
  constructor
  · intro settled before after split
    exact settled (live before) after (by rw [split, live_append_announced])
  · intro settled before after split
    obtain ⟨earlier, whole⟩ := live_suffix marks
    exact settled (earlier ++ before) after (by rw [whole, split, List.append_assoc])

theorem marks_calls (id : String) (content : Content π) (toolCalls : List ToolCall)
    (agentId : Option String) : (id ∉ toolCalls.map (·.toolCallId) ∧
      (Message.assistant content (some toolCalls) agentId).marks id = []) ∨
    (id ∈ toolCalls.map (·.toolCallId) ∧ ∃ count,
      (Message.assistant content (some toolCalls) agentId).marks id =
        .announced :: List.replicate count .announced) := by
  cases named : toolCalls.countP fun call => call.toolCallId = id with
  | zero =>
    refine .inl ⟨fun member => ?_, by rw [Message.marks, named]; rfl⟩
    obtain ⟨call, among, same⟩ := List.mem_map.mp member
    exact List.countP_eq_zero.mp named call among (decide_eq_true same)
  | succ count =>
    obtain ⟨call, among, same⟩ := List.countP_pos_iff.mp
      (show 0 < toolCalls.countP fun call => call.toolCallId = id by omega)
    refine .inr ⟨List.mem_map.mpr ⟨call, among, of_decide_eq_true same⟩, count, ?_⟩
    rw [Message.marks, named]
    rfl

theorem survey_resolved (id : String) (messages : List (Message π)) (start : Survey) :
    id ∈ (messages.foldl Survey.see start).resolved ↔
      id ∈ start.resolved ∨
        .answered ∈ (if id ∈ start.announcedSoFar then history id messages
          else live (history id messages)) := by
  induction messages generalizing start with
  | nil => simp [live]
  | cons message rest ih =>
    rw [List.foldl_cons, ih, history_cons]
    cases message with
    | system | user => rfl
    | assistant content toolCalls agentId =>
      cases toolCalls with
      | none => rfl
      | some toolCalls =>
        simp only [Survey.see, List.mem_append]
        rcases marks_calls id content toolCalls agentId with
          ⟨unnamed, marks⟩ | ⟨named, count, marks⟩
        · simp only [unnamed, or_false, marks, List.nil_append]
        · have counts : live ((.announced :: List.replicate count .announced) ++
              history id rest) =
              (.announced :: List.replicate count .announced) ++ history id rest := rfl
          rw [marks, counts, ite_self, if_pos (.inr named)]
          simp
    | tool toolCallId content =>
      by_cases same : toolCallId = id
      · subst same
        have marks : (Message.tool toolCallId content).marks toolCallId =
            [.answered] := by simp [Message.marks]
        have counts : live ([.answered] ++ history toolCallId rest) =
            live (history toolCallId rest) := rfl
        rw [marks, counts]
        by_cases known : toolCallId ∈ start.announcedSoFar
        · simp [Survey.see, known]
        · simp [Survey.see, known]
      · have marks : (Message.tool toolCallId content).marks id = [] := by
          simp [Message.marks, same]
        rw [marks, List.nil_append, Survey.see]
        split
        · simp [Ne.symm same]
        · rfl

theorem resolved_iff (id : String) (messages : List (Message π)) :
    id ∈ (survey messages).resolved ↔ Answered id messages := by
  rw [survey, survey_resolved]
  simp [Answered]

theorem countP_filter (id : String) (resolved : List String) (named : id ∈ resolved)
    (toolCalls : List ToolCall) :
    (toolCalls.filter fun call => call.toolCallId ∈ resolved).countP
        (fun call => call.toolCallId = id) =
      toolCalls.countP fun call => call.toolCallId = id := by
  rw [List.countP_filter]
  refine List.countP_congr fun call _ => ?_
  simp only [Bool.and_eq_true, decide_eq_true_eq, and_iff_left_iff_imp]
  rintro rfl
  exact named

theorem history_kept (id : String) (resolved : List String) (content : Content π)
    (toolCalls : List ToolCall) (agentId : Option String) (rest : List (Message π))
    (keptAnnounced : List String) :
    history id (keep resolved (.assistant content (some toolCalls) agentId :: rest)
        keptAnnounced) =
      List.replicate ((toolCalls.filter fun call => call.toolCallId ∈ resolved).countP
        fun call => call.toolCallId = id) .announced ++
      history id (keep resolved rest (keptAnnounced ++
        (toolCalls.filter fun call => call.toolCallId ∈ resolved).map
          (·.toolCallId))) := by
  rw [keep]
  split
  · rename_i whole
    have same := List.filter_eq_self.mpr (List.length_filter_eq_length_iff.mp whole)
    rw [history_cons, same]
    rfl
  · split
    · rename_i empty
      rw [List.eq_nil_of_length_eq_zero empty.1]
      rfl
    · rw [history_cons]
      split
      · rfl
      · rename_i few
        rw [List.eq_nil_of_length_eq_zero (show (toolCalls.filter fun call =>
          call.toolCallId ∈ resolved).length = 0 by omega)]
        rfl

theorem history_keep (id : String) (resolved : List String) (messages : List (Message π))
    (keptAnnounced : List String) (inside : keptAnnounced ⊆ resolved) :
    history id (keep resolved messages keptAnnounced) =
      if id ∈ resolved then
        if id ∈ keptAnnounced then history id messages else live (history id messages)
      else [] := by
  induction messages generalizing keptAnnounced with
  | nil =>
    rw [keep]
    split
    · split <;> rfl
    · rfl
  | cons message rest ih =>
    cases message with
    | system | user => exact ih keptAnnounced inside
    | assistant content toolCalls agentId =>
      cases toolCalls with
      | none => exact ih keptAnnounced inside
      | some toolCalls =>
        have inside' : keptAnnounced ++ (toolCalls.filter fun call =>
            call.toolCallId ∈ resolved).map (·.toolCallId) ⊆ resolved := by
          refine List.append_subset.mpr ⟨inside, fun name member => ?_⟩
          obtain ⟨call, among, rfl⟩ := List.mem_map.mp member
          exact of_decide_eq_true (List.mem_filter.mp among).2
        rw [history_kept, ih _ inside']
        by_cases named : id ∈ resolved
        · have added : id ∈ (toolCalls.filter fun call =>
              call.toolCallId ∈ resolved).map (·.toolCallId) ↔
                id ∈ toolCalls.map (·.toolCallId) := by
            simp only [List.mem_map, List.mem_filter, decide_eq_true_eq]
            exact exists_congr fun call => and_congr_left fun same => by
              rw [same, and_iff_left named]
          rw [countP_filter id resolved named, if_pos named, if_pos named,
            history_cons]
          simp only [List.mem_append, added]
          rcases marks_calls id content toolCalls agentId with
            ⟨unnamed, marks⟩ | ⟨known, count, marks⟩
          · rw [marks]
            rw [Message.marks] at marks
            simp only [marks, unnamed, or_false, List.nil_append]
          · rw [marks]
            rw [Message.marks] at marks
            rw [marks, if_pos (.inr known)]
            split <;> rfl
        · have none' : (toolCalls.filter fun call => call.toolCallId ∈ resolved).countP
              (fun call => call.toolCallId = id) = 0 := by
            refine List.countP_eq_zero.mpr fun call among => ?_
            have answered := of_decide_eq_true (List.mem_filter.mp among).2
            simp only [decide_eq_true_eq]
            rintro rfl
            exact named answered
          rw [none', if_neg named, if_neg named]
          rfl
    | tool toolCallId content =>
      rw [keep, history_cons]
      by_cases same : toolCallId = id
      · subst same
        have marks : (Message.tool toolCallId content).marks toolCallId =
            [.answered] := by simp [Message.marks]
        have counts : live ([.answered] ++ history toolCallId rest) =
            live (history toolCallId rest) := rfl
        rw [marks, counts]
        split
        · rename_i known
          rw [history_cons, ih _ inside, marks, if_pos (inside known), if_pos known,
            if_pos (inside known)]
        · rename_i unknown
          rw [ih _ inside, if_neg unknown]
      · have marks : (Message.tool toolCallId content).marks id = [] := by
          simp [Message.marks, same]
        rw [marks, List.nil_append]
        split
        · rw [history_cons, ih _ inside, marks, List.nil_append]
        · exact ih _ inside

theorem history_sanitize (id : String) (messages : List (Message π)) :
    history id (sanitizeHandoffSeed messages) = live (history id messages) ∧
        Answered id messages ∨
      history id (sanitizeHandoffSeed messages) = [] ∧ ¬ Answered id messages := by
  rw [sanitizeHandoffSeed, history_keep id _ _ _ (List.nil_subset _)]
  by_cases answered : Answered id messages
  · rw [if_pos ((resolved_iff id messages).mpr answered), if_neg List.not_mem_nil]
    exact .inl ⟨rfl, answered⟩
  · rw [if_neg (mt (resolved_iff id messages).mp answered)]
    exact .inr ⟨rfl, answered⟩

theorem spoken_keep (resolved : List String) (messages : List (Message π))
    (keptAnnounced : List String) :
    (keep resolved messages keptAnnounced).filterMap Message.spoken =
      messages.filterMap Message.spoken := by
  induction messages generalizing keptAnnounced with
  | nil => rfl
  | cons message rest ih =>
    cases message with
    | system content =>
      show (Message.system content :: keep resolved rest keptAnnounced).filterMap _ = _
      rw [List.filterMap_cons, List.filterMap_cons, ih]
    | user content =>
      show (Message.user content :: keep resolved rest keptAnnounced).filterMap _ = _
      rw [List.filterMap_cons, List.filterMap_cons, ih]
    | tool =>
      rw [keep]
      split
      · rw [List.filterMap_cons, List.filterMap_cons, ih]
      · rw [ih]
        rfl
    | assistant content toolCalls agentId =>
      cases toolCalls with
      | none => simp [keep, List.filterMap_cons, Message.spoken, ih]
      | some toolCalls =>
        rw [keep]
        split
        · simp [List.filterMap_cons, Message.spoken, ih]
        · split
          · rename_i dropped
            simp [Message.spoken, ih, dropped.2]
          · simp [List.filterMap_cons, Message.spoken, ih]

def Grounded (resolved : List String) : List (Message π) → List String → Prop
  | [], _ => True
  | .tool toolCallId _ :: rest, announced =>
    toolCallId ∈ announced ∧ Grounded resolved rest announced
  | .assistant _ (some toolCalls) _ :: rest, announced =>
    (∀ call ∈ toolCalls, call.toolCallId ∈ resolved) ∧
      Grounded resolved rest (announced ++ toolCalls.map (·.toolCallId))
  | _ :: rest, announced => Grounded resolved rest announced

theorem keep_grounded (resolved : List String) (messages : List (Message π))
    (keptAnnounced : List String) :
    Grounded resolved (keep resolved messages keptAnnounced) keptAnnounced := by
  induction messages generalizing keptAnnounced with
  | nil => trivial
  | cons message rest ih =>
    cases message with
    | system | user => exact ih keptAnnounced
    | tool =>
      rw [keep]
      split
      · exact ⟨‹_›, ih keptAnnounced⟩
      · exact ih keptAnnounced
    | assistant content toolCalls agentId =>
      cases toolCalls with
      | none => exact ih keptAnnounced
      | some toolCalls =>
        have answered : ∀ call ∈ toolCalls.filter fun call =>
            call.toolCallId ∈ resolved, call.toolCallId ∈ resolved :=
          fun call among => of_decide_eq_true (List.mem_filter.mp among).2
        rw [keep]
        split
        · rename_i whole
          have same := List.filter_eq_self.mpr
            (List.length_filter_eq_length_iff.mp whole)
          rw [same] at answered ⊢
          exact ⟨answered, ih _⟩
        · split
          · rename_i empty
            rw [List.eq_nil_of_length_eq_zero empty.1, List.map_nil, List.append_nil]
            exact ih _
          · split
            · exact ⟨answered, ih _⟩
            · rename_i few
              rw [List.eq_nil_of_length_eq_zero (show (toolCalls.filter fun call =>
                call.toolCallId ∈ resolved).length = 0 by omega), List.map_nil,
                List.append_nil]
              exact ih _

theorem keep_of_grounded (grounded : Grounded resolved messages announced) :
    keep resolved messages announced = messages := by
  induction messages generalizing announced with
  | nil => rfl
  | cons message _ ih =>
    cases message with
    | system | user => exact congrArg _ (ih grounded)
    | tool =>
      rw [keep, if_pos grounded.1, ih grounded.2]
    | assistant _ toolCalls =>
      cases toolCalls with
      | none => exact congrArg _ (ih grounded)
      | some toolCalls =>
        have same : (toolCalls.filter fun call => call.toolCallId ∈ resolved) =
            toolCalls :=
          List.filter_eq_self.mpr fun call among =>
            decide_eq_true (grounded.1 call among)
        rw [keep]
        simp only [same, if_true, ih grounded.2]

theorem Grounded.mono (grounded : Grounded resolved messages announced)
    (more : ∀ id ∈ resolved, id ∈ wider) : Grounded wider messages announced := by
  induction messages generalizing announced with
  | nil => trivial
  | cons message _ ih =>
    cases message with
    | system | user => exact ih grounded
    | tool => exact ⟨grounded.1, ih grounded.2⟩
    | assistant _ toolCalls =>
      cases toolCalls with
      | none => exact ih grounded
      | some =>
        exact ⟨fun call among => more _ (grounded.1 call among), ih grounded.2⟩

theorem live_live (marks : List Mark) : live (live marks) = live marks := by
  induction marks with
  | nil => rfl
  | cons mark _ ih =>
    cases mark with
    | announced => rfl
    | answered => exact ih

theorem sanitize_sanitize (messages : List (Message π)) :
    sanitizeHandoffSeed (sanitizeHandoffSeed messages) = sanitizeHandoffSeed messages := by
  have grounded : Grounded (survey (sanitizeHandoffSeed messages)).resolved
      (sanitizeHandoffSeed messages) [] := by
    refine (keep_grounded (survey messages).resolved messages []).mono fun id resolved => ?_
    have answered := (resolved_iff id messages).mp resolved
    rw [resolved_iff, Answered]
    rcases history_sanitize id messages with ⟨same, -⟩ | ⟨-, unanswered⟩
    · rw [same, live_live]
      exact answered
    · exact absurd answered unanswered
  exact keep_of_grounded grounded

/-- What is said survives, every answer has its call before it and a second pass changes
nothing; and every call is answered before it is announced again exactly when the calls that
were answered at all were. -/
theorem seed_wellFormed_iff (messages : List (Message π)) :
    ((∀ id, Settled (history id (sanitizeHandoffSeed messages))) ∧
      (∀ id before after,
        history id (sanitizeHandoffSeed messages) = before ++ .answered :: after →
          .announced ∈ before) ∧
      (sanitizeHandoffSeed messages).filterMap Message.spoken =
        messages.filterMap Message.spoken ∧
      sanitizeHandoffSeed (sanitizeHandoffSeed messages) = sanitizeHandoffSeed messages) ↔
    ∀ id, Answered id messages → Settled (history id messages) := by
  constructor
  · rintro ⟨settled, -⟩ id answered
    rcases history_sanitize id messages with ⟨same, -⟩ | ⟨-, unanswered⟩
    · exact (settled_live _).mp (same ▸ settled id)
    · exact absurd answered unanswered
  · intro settled
    refine ⟨fun id => ?_, fun id before after split => ?_, spoken_keep _ _ _,
      sanitize_sanitize messages⟩
    · rcases history_sanitize id messages with ⟨same, answered⟩ | ⟨bare, -⟩
      · rw [same]
        exact (settled_live _).mpr (settled id answered)
      · rw [bare]
        intro before after split
        simp at split
    · rcases history_sanitize id messages with ⟨same, -⟩ | ⟨bare, -⟩
      · exact live_answered before after (same ▸ split)
      · rw [bare] at split
        simp at split

def reannounced : List (Message Unit) :=
  [.assistant (.text "") (some [⟨"c1", "search", .null⟩]) none, .tool "c1" (.text "found"),
    .assistant (.text "") (some [⟨"c1", "transfer_to_writer", .null⟩]) none]

theorem reannounced_call_dangles : ¬ ∀ (π : Type) (messages : List (Message π)) (id : String),
    Settled (history id (sanitizeHandoffSeed messages)) := by
  intro settled
  have history : history "c1" (sanitizeHandoffSeed reannounced) =
      [.announced, .answered] ++ .announced :: [] := by decide
  obtain ⟨later, nothing⟩ := settled Unit reannounced "c1" _ _ history
  cases nothing

end Graphorin.Agent.Handoff
