import Mathlib.Data.List.Basic

namespace Graphorin.Lib

/-! Conversations in which announcements of calls are followed by the answers to them. -/

inductive Turn (κ : Type) where
  | announces (calls : List κ)
  | answers (call : κ)
  deriving DecidableEq

variable {κ : Type}

def Turn.isAnswer : Turn κ → Bool
  | .announces _ => false
  | .answers _ => true

namespace Transcript

/-- Every answer is to a call of the last message that is no answer; `pending` are the
calls announced before the first one. -/
def WellFormed : List κ → List (Turn κ) → Prop
  | _, [] => True
  | _, .announces calls :: rest => WellFormed calls rest
  | pending, .answers call :: rest => call ∈ pending ∧ WellFormed pending rest

/-- The call announced at a place is answered before the next announcement. -/
def Answered (turns : List (Turn κ)) (place : Nat) (call : κ) : Prop :=
  ∃ calls answer, turns[place]? = some (.announces calls) ∧ call ∈ calls ∧
    place < answer ∧ turns[answer]? = some (.answers call) ∧
      ∀ between, place < between → between < answer →
        (turns[between]?).any Turn.isAnswer = true

variable {pending : List κ} {turns : List (Turn κ)}

/-- Where nothing is answered first, what was announced before does not matter. -/
theorem WellFormed.anew (wellFormed : WellFormed pending turns)
    (fresh : (turns[0]?).any Turn.isAnswer = false) (pending' : List κ) :
    WellFormed pending' turns := by
  match turns with
  | [] => trivial
  | .announces _ :: _ => exact wellFormed
  | .answers _ :: _ => cases fresh

variable {boundary : Nat}

theorem WellFormed.drop (wellFormed : WellFormed pending turns)
    (fresh : (turns[boundary]?).any Turn.isAnswer = false) (pending' : List κ) :
    WellFormed pending' (turns.drop boundary) := by
  induction turns generalizing pending boundary with
  | nil =>
    rw [List.drop_nil]
    trivial
  | cons turn _ ih =>
    cases boundary with
    | zero => exact wellFormed.anew fresh pending'
    | succ =>
      rw [List.getElem?_cons_succ] at fresh
      cases turn with
      | announces => exact ih wellFormed fresh
      | answers => exact ih wellFormed.2 fresh

variable {front : List (Turn κ)}

theorem WellFormed.behind {back : List (Turn κ)}
    (quiet : ∀ turn ∈ front, turn = .announces [])
    (wellFormed : ∀ pending', WellFormed pending' back) :
    WellFormed pending (front ++ back) := by
  induction front generalizing pending with
  | nil => exact wellFormed pending
  | cons turn _ ih =>
    rw [quiet turn List.mem_cons_self]
    exact ih fun turn there => quiet turn (List.mem_cons_of_mem _ there)

variable {call : κ}

theorem WellFormed.announced {before after : List (Turn κ)}
    (wellFormed : WellFormed pending (before ++ .answers call :: after)) :
    call ∈ pending ∨ ∃ calls, .announces calls ∈ before ∧ call ∈ calls := by
  induction before generalizing pending with
  | nil => exact .inl wellFormed.1
  | cons turn _ ih =>
    cases turn with
    | announces calls =>
      rcases ih wellFormed with here | ⟨calls', there, here⟩
      · exact .inr ⟨calls, List.mem_cons_self, here⟩
      · exact .inr ⟨calls', List.mem_cons_of_mem _ there, here⟩
    | answers =>
      rcases ih wellFormed.2 with here | ⟨calls', there, here⟩
      · exact .inl here
      · exact .inr ⟨calls', List.mem_cons_of_mem _ there, here⟩

/-- What is answered stays so when the list is cut before the announcement and something
else is put in front. -/
theorem Answered.moved {place : Nat} (answered : Answered turns place call)
    (kept : boundary ≤ place) :
    Answered (front ++ turns.drop boundary) (front.length + (place - boundary)) call := by
  obtain ⟨calls, answer, announced, member, later, answers, between⟩ := answered
  have moved : ∀ index, boundary ≤ index →
      (front ++ turns.drop boundary)[front.length + (index - boundary)]? =
        turns[index]? := by
    intro index inside
    rw [List.getElem?_append_right (by omega), List.getElem?_drop]
    congr 1
    omega
  refine ⟨calls, front.length + (answer - boundary), ?_, member, by omega, ?_, ?_⟩
  · rw [moved place kept]
    exact announced
  · rw [moved answer (by omega)]
    exact answers
  · intro index after before
    have here := between (index - front.length + boundary) (by omega) (by omega)
    rw [← moved _ (by omega)] at here
    rwa [show front.length + (index - front.length + boundary - boundary) = index by
      omega] at here

end Transcript

end Graphorin.Lib
