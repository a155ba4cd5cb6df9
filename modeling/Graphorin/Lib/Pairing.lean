import Mathlib.Algebra.Group.Nat.Defs
import Mathlib.Data.List.Basic

namespace Graphorin.Lib.Pairing

/-! Trees that are built level by level.  Neighbours are joined; an odd one at
the end moves up as it is.  A node is shown to be under a root by naming its
sibling on each level where it has one. -/

section Levels

variable {α : Type} (node : α → α → α)

def pairUp : List α → List α
  | left :: right :: rest => node left right :: pairUp rest
  | [last] => [last]
  | [] => []

theorem pairUp_length : ∀ items : List α,
    (pairUp node items).length = (items.length + 1) / 2
  | left :: right :: rest => by
      rw [pairUp, List.length_cons, pairUp_length rest, List.length_cons,
        List.length_cons]
      omega
  | [last] => by simp [pairUp]
  | [] => by simp [pairUp]

def join? : Option α → Option α → Option α
  | some left, some right => some (node left right)
  | some last, none => some last
  | none, _ => none

theorem pairUp_getElem? : ∀ (items : List α) (place : Nat),
    (pairUp node items)[place]? = join? node items[2 * place]? items[2 * place + 1]?
  | left :: right :: rest, 0 => rfl
  | left :: right :: rest, place + 1 => by
      rw [pairUp, List.getElem?_cons_succ, pairUp_getElem? rest place]
      rfl
  | [last], 0 => rfl
  | [last], place + 1 => by
      have gone : 2 * (place + 1) = 2 * place + 1 + 1 := by omega
      simp [pairUp, gone, join?]
  | [], place => by simp [pairUp, join?]

theorem pairUp_append : ∀ {first : List α} (second : List α), first.length % 2 = 0 →
      pairUp node (first ++ second) = pairUp node first ++ pairUp node second
  | left :: right :: rest, second, even => by
      have even' : rest.length % 2 = 0 := by
        simp only [List.length_cons] at even
        omega
      rw [List.cons_append, List.cons_append, pairUp, pairUp,
        pairUp_append second even', List.cons_append]
  | [last], second, even => by simp at even
  | [], second, _ => rfl

theorem pairUp_take (items : List α) {place : Nat} (even : place % 2 = 0) :
    pairUp node (items.take place) = (pairUp node items).take (place / 2) := by
  by_cases short : items.length ≤ place
  · rw [List.take_of_length_le short, List.take_of_length_le]
    rw [pairUp_length]
    omega
  · have whole : (items.take place).length = place := by
      rw [List.length_take]
      omega
    have split := pairUp_append node (items.drop place)
      (by rw [whole]; exact even)
    rw [List.take_append_drop] at split
    have half : (pairUp node (items.take place)).length = place / 2 := by
      rw [pairUp_length, whole]
      omega
    rw [split, ← half, List.take_left]

def root : List α → Option α
  | [] => none
  | [only] => some only
  | left :: right :: rest => root (pairUp node (left :: right :: rest))
termination_by items => items.length
decreasing_by
  simp only [pairUp_length, List.length_cons]
  omega

theorem root_pairUp {items : List α} (several : 2 ≤ items.length) :
    root node (pairUp node items) = root node items := by
  match items with
  | [] => cases several
  | [only] => simp at several
  | left :: right :: rest => rw [root]

def siblings (place : Nat) (items : List α) : List α :=
  if items.length ≤ 1 then []
  else
    (if place % 2 = 1 then items[place - 1]? else items[place + 1]?).toList ++
      siblings (place / 2) (pairUp node items)
termination_by items.length
decreasing_by
  rw [pairUp_length]
  omega

/-- Climb from `place` on a level whose last place is `last`. -/
def climb (place last : Nat) (path : List α) (reached : α) : Option α :=
  if last = 0 then
    if path.isEmpty then some reached else none
  else if place % 2 = 1 then
    match path with
    | [] => none
    | sibling :: rest => climb (place / 2) (last / 2) rest (node sibling reached)
  else if place = last then climb (place / 2) (last / 2) path reached
  else
    match path with
    | [] => none
    | sibling :: rest => climb (place / 2) (last / 2) rest (node reached sibling)
termination_by last
decreasing_by all_goals omega

/-- Climb under two roots at once: the tree that ends at `place`, and the
longer one. -/
def climbBoth (place last : Nat) (path : List α) (first second : α) :
    Option (α × α) :=
  if last = 0 then
    if path.isEmpty then some (first, second) else none
  else if place % 2 = 1 then
    match path with
    | [] => none
    | sibling :: rest =>
      climbBoth (place / 2) (last / 2) rest (node sibling first)
        (node sibling second)
  else if place = last then
    climbBoth (place / 2) (last / 2) path first second
  else
    match path with
    | [] => none
    | sibling :: rest =>
      climbBoth (place / 2) (last / 2) rest first (node second sibling)
termination_by last
decreasing_by all_goals omega

section Step

variable {node}

theorem root_isSome {items : List α} (some : items ≠ []) :
    (root node items).isSome := by
  fun_induction root node items with
  | case1 => exact absurd rfl some
  | case2 => rfl
  | case3 left right rest ih =>
    apply ih
    simp [pairUp]

variable {place : Nat} {items : List α}

theorem siblings_one (few : items.length ≤ 1) : siblings node place items = [] := by
  rw [siblings, if_pos few]

theorem siblings_more (several : 2 ≤ items.length) :
    siblings node place items =
      (if place % 2 = 1 then items[place - 1]? else items[place + 1]?).toList ++
        siblings node (place / 2) (pairUp node items) := by
  rw [siblings, if_neg (by omega)]

variable {last : Nat} {sibling reached : α} {rest : List α}

theorem climb_left (above : 0 < last) (odd : place % 2 = 1) :
    climb node place last (sibling :: rest) reached =
      climb node (place / 2) (last / 2) rest (node sibling reached) := by
  rw [climb, if_neg (by omega), if_pos odd]

theorem climb_moved {path : List α} (above : 0 < place) (even : place % 2 = 0) :
    climb node place place path reached =
      climb node (place / 2) (place / 2) path reached := by
  rw [climb.eq_def, if_neg (by omega), if_neg (by omega), if_pos rfl]

theorem climb_right (above : 0 < last) (even : place % 2 = 0) (inside : place ≠ last) :
    climb node place last (sibling :: rest) reached =
      climb node (place / 2) (last / 2) rest (node reached sibling) := by
  rw [climb, if_neg (by omega), if_neg (by omega), if_neg inside]

variable {first second : α}

theorem climbBoth_left (above : 0 < last) (odd : place % 2 = 1) :
    climbBoth node place last (sibling :: rest) first second =
      climbBoth node (place / 2) (last / 2) rest (node sibling first)
        (node sibling second) := by
  rw [climbBoth, if_neg (by omega), if_pos odd]

theorem climbBoth_moved {path : List α} (above : 0 < place) (even : place % 2 = 0) :
    climbBoth node place place path first second =
      climbBoth node (place / 2) (place / 2) path first second := by
  rw [climbBoth.eq_def, if_neg (by omega), if_neg (by omega), if_pos rfl]

theorem climbBoth_right (above : 0 < last) (even : place % 2 = 0) (inside : place ≠ last) :
    climbBoth node place last (sibling :: rest) first second =
      climbBoth node (place / 2) (last / 2) rest first (node second sibling) := by
  rw [climbBoth, if_neg (by omega), if_neg (by omega), if_neg inside]

/-- Before the top there is a level with a sibling on the left. -/
theorem climb_nil (inside : place ≤ last) (above : 0 < last) :
    climb node place last [] reached = none := by
  induction last using Nat.strongRecOn generalizing place with
  | ind last ih =>
    rw [climb, if_neg (by omega)]
    split
    · rfl
    · split
      · exact ih (last / 2) (by omega) (by omega) (by omega)
      · rfl

theorem climbBoth_nil (inside : place ≤ last) (above : 0 < last) :
    climbBoth node place last [] first second = none := by
  induction last using Nat.strongRecOn generalizing place with
  | ind last ih =>
    rw [climbBoth, if_neg (by omega)]
    split
    · rfl
    · split
      · exact ih (last / 2) (by omega) (by omega) (by omega)
      · rfl

/-- What stands above a place, by its parity. -/
theorem pairUp_above_odd {left right : α} (odd : place % 2 = 1)
    (before : items[place - 1]? = some left) (here : items[place]? = some right) :
    (pairUp node items)[place / 2]? = some (node left right) := by
  rw [pairUp_getElem?, show 2 * (place / 2) + 1 = place by omega, here,
    show 2 * (place / 2) = place - 1 by omega, before]
  rfl

theorem pairUp_above_even {left right : α} (even : place % 2 = 0)
    (here : items[place]? = some left) (behind : items[place + 1]? = some right) :
    (pairUp node items)[place / 2]? = some (node left right) := by
  rw [pairUp_getElem?, show 2 * (place / 2) = place by omega, here, behind]
  rfl

theorem pairUp_above_last {items : List α} {place : Nat} {only : α}
    (even : place % 2 = 0) (here : items[place]? = some only)
    (last : items.length = place + 1) :
    (pairUp node items)[place / 2]? = some only := by
  rw [pairUp_getElem?, show 2 * (place / 2) = place by omega, here,
    List.getElem?_eq_none (by omega)]
  rfl

end Step

theorem climb_siblings {items : List α} {place : Nat} {item : α}
    (here : items[place]? = some item) :
    climb node place (items.length - 1) (siblings node place items) item =
      root node items := by
  have inside := (List.getElem?_eq_some_iff.mp here).1
  generalize size : items.length = count at inside
  induction count using Nat.strongRecOn generalizing items place item with
  | ind count ih =>
    by_cases single : count = 1
    · obtain ⟨only, rfl⟩ := List.length_eq_one_iff.mp (size.trans single)
      obtain rfl : place = 0 := by omega
      cases here
      rw [siblings_one (by simp), climb, if_pos (by simp [single])]
      simp [root]
    · have several : 2 ≤ items.length := by omega
      have halves : (pairUp node items).length = (count + 1) / 2 := by
        rw [pairUp_length, size]
      have above : ∀ parent, (pairUp node items)[place / 2]? = some parent →
          climb node (place / 2) ((count - 1) / 2)
            (siblings node (place / 2) (pairUp node items)) parent =
              root node items := by
        intro parent stands
        have led := ih ((count + 1) / 2) (by omega) stands halves (by omega)
        rw [root_pairUp node several] at led
        rw [← led]
        congr 1
        omega
      rw [siblings_more several]
      by_cases odd : place % 2 = 1
      · obtain ⟨left, before⟩ : ∃ left, items[place - 1]? = some left :=
          ⟨_, List.getElem?_eq_getElem (by omega)⟩
        rw [if_pos odd, before, Option.toList_some, List.singleton_append,
          climb_left (by omega) odd]
        exact above _ (pairUp_above_odd odd before here)
      · have even : place % 2 = 0 := by omega
        rw [if_neg odd]
        by_cases last : place = count - 1
        · rw [List.getElem?_eq_none (by omega), Option.toList_none,
            List.nil_append, ← last, climb_moved (by omega) even]
          have led := above item (pairUp_above_last even here (by omega))
          rw [← last] at led
          exact led
        · obtain ⟨right, behind⟩ : ∃ right, items[place + 1]? = some right :=
            ⟨_, List.getElem?_eq_getElem (by omega)⟩
          rw [behind, Option.toList_some, List.singleton_append,
            climb_right (by omega) even last]
          exact above _ (pairUp_above_even even here behind)

/-- The same siblings lead to both roots, if the shorter list agrees with the
longer one before the place it ends at. -/
theorem climbBoth_siblings {shorter longer : List α} {place : Nat}
    {first second : α} (ends : shorter.length = place + 1)
    (agree : ∀ before, before < place → shorter[before]? = longer[before]?)
    (here : shorter[place]? = some first) (there : longer[place]? = some second) :
    ∃ roots, climbBoth node place (longer.length - 1)
        (siblings node place longer) first second = some roots ∧
      root node shorter = some roots.1 ∧ root node longer = some roots.2 := by
  have inside := (List.getElem?_eq_some_iff.mp there).1
  generalize size : longer.length = count at inside
  induction count using Nat.strongRecOn generalizing shorter longer place first
      second with
  | ind count ih =>
    by_cases single : count = 1
    · obtain ⟨only, rfl⟩ := List.length_eq_one_iff.mp (size.trans single)
      obtain rfl : place = 0 := by omega
      obtain ⟨other, rfl⟩ := List.length_eq_one_iff.mp ends
      cases here
      cases there
      refine ⟨(first, second), ?_, by simp [root], by simp [root]⟩
      rw [siblings_one (by simp), climbBoth, if_pos (by simp [single])]
      rfl
    · have several : 2 ≤ longer.length := by omega
      have halves : (pairUp node longer).length = (count + 1) / 2 := by
        rw [pairUp_length, size]
      have ends' : (pairUp node shorter).length = place / 2 + 1 := by
        rw [pairUp_length, ends]
        omega
      have agree' : ∀ before, before < place / 2 →
          (pairUp node shorter)[before]? = (pairUp node longer)[before]? := by
        intro before earlier
        rw [pairUp_getElem?, pairUp_getElem?, agree _ (by omega),
          agree _ (by omega)]
      have above : ∀ left right,
          (pairUp node shorter)[place / 2]? = some left →
          (pairUp node longer)[place / 2]? = some right →
          ∃ roots, climbBoth node (place / 2) ((count - 1) / 2)
              (siblings node (place / 2) (pairUp node longer)) left right =
                some roots ∧
            root node (pairUp node shorter) = some roots.1 ∧
            root node longer = some roots.2 := by
        intro left right stands other
        obtain ⟨roots, led, ours, theirs⟩ := ih ((count + 1) / 2) (by omega)
          ends' agree' stands other halves (by omega)
        rw [root_pairUp node several] at theirs
        refine ⟨roots, ?_, ours, theirs⟩
        rw [← led]
        congr 1
        omega
      have shorter' : 0 < place →
          root node (pairUp node shorter) = root node shorter :=
        fun later => root_pairUp node (by omega)
      rw [siblings_more several]
      by_cases odd : place % 2 = 1
      · obtain ⟨left, before⟩ : ∃ left, longer[place - 1]? = some left :=
          ⟨_, List.getElem?_eq_getElem (by omega)⟩
        have before' := (agree (place - 1) (by omega)).trans before
        rw [if_pos odd, before, Option.toList_some, List.singleton_append,
          climbBoth_left (by omega) odd, ← shorter' (by omega)]
        exact above _ _ (pairUp_above_odd odd before' here)
          (pairUp_above_odd odd before there)
      · have even : place % 2 = 0 := by omega
        have moved := @pairUp_above_last α node _ _ _ even here ends
        have kept : root node shorter = root node (pairUp node shorter) := by
          by_cases later : 0 < place
          · exact (shorter' later).symm
          · obtain ⟨only, rfl⟩ := List.length_eq_one_iff.mp
              (show shorter.length = 1 by omega)
            rfl
        rw [if_neg odd, kept]
        by_cases last : place = count - 1
        · rw [List.getElem?_eq_none (by omega), Option.toList_none,
            List.nil_append, ← last, climbBoth_moved (by omega) even]
          have led := above _ _ moved
            (pairUp_above_last even there (by omega))
          rw [← last] at led
          exact led
        · obtain ⟨right, behind⟩ : ∃ right, longer[place + 1]? = some right :=
            ⟨_, List.getElem?_eq_getElem (by omega)⟩
          rw [behind, Option.toList_some, List.singleton_append,
            climbBoth_right (by omega) even last]
          exact above _ _ moved (pairUp_above_even even there behind)

def level : List α → List (α × α)
  | left :: right :: rest => (left, right) :: level rest
  | _ => []

def joins (items : List α) : List (α × α) :=
  if items.length ≤ 1 then []
  else level items ++ joins (pairUp node items)
termination_by items.length
decreasing_by
  rw [pairUp_length]
  omega

def climbed (place last : Nat) (path : List α) (reached : α) : List (α × α) :=
  if last = 0 then []
  else if place % 2 = 1 then
    match path with
    | [] => []
    | sibling :: rest =>
      (sibling, reached) ::
        climbed (place / 2) (last / 2) rest (node sibling reached)
  else if place = last then climbed (place / 2) (last / 2) path reached
  else
    match path with
    | [] => []
    | sibling :: rest =>
      (reached, sibling) ::
        climbed (place / 2) (last / 2) rest (node reached sibling)
termination_by last
decreasing_by all_goals omega

def climbedBoth (place last : Nat) (path : List α) (first second : α) :
    List (α × α) :=
  if last = 0 then []
  else if place % 2 = 1 then
    match path with
    | [] => []
    | sibling :: rest =>
      (sibling, first) :: (sibling, second) ::
        climbedBoth (place / 2) (last / 2) rest (node sibling first)
          (node sibling second)
  else if place = last then
    climbedBoth (place / 2) (last / 2) path first second
  else
    match path with
    | [] => []
    | sibling :: rest =>
      (second, sibling) ::
        climbedBoth (place / 2) (last / 2) rest first (node second sibling)
termination_by last
decreasing_by all_goals omega

section Pairs

variable {node}

variable {place last : Nat} {sibling reached : α} {rest : List α}

theorem climbed_left (above : 0 < last) (odd : place % 2 = 1) :
    climbed node place last (sibling :: rest) reached = (sibling, reached) ::
        climbed node (place / 2) (last / 2) rest (node sibling reached) := by
  rw [climbed, if_neg (by omega), if_pos odd]

theorem climbed_moved {path : List α} (above : 0 < place) (even : place % 2 = 0) :
    climbed node place place path reached =
      climbed node (place / 2) (place / 2) path reached := by
  rw [climbed.eq_def, if_neg (by omega), if_neg (by omega), if_pos rfl]

theorem climbed_right (above : 0 < last) (even : place % 2 = 0) (inside : place ≠ last) :
    climbed node place last (sibling :: rest) reached = (reached, sibling) ::
        climbed node (place / 2) (last / 2) rest (node reached sibling) := by
  rw [climbed, if_neg (by omega), if_neg (by omega), if_neg inside]

theorem climbed_nil (inside : place ≤ last) :
    climbed node place last [] reached = [] := by
  induction last using Nat.strongRecOn generalizing place with
  | ind last ih =>
    rw [climbed]
    split
    · rfl
    · split
      · rfl
      · split
        · exact ih (last / 2) (by omega) (by omega)
        · rfl

variable {first second : α}

theorem climbedBoth_left (above : 0 < last) (odd : place % 2 = 1) :
    climbedBoth node place last (sibling :: rest) first second =
      (sibling, first) :: (sibling, second) ::
        climbedBoth node (place / 2) (last / 2) rest (node sibling first)
          (node sibling second) := by
  rw [climbedBoth, if_neg (by omega), if_pos odd]

theorem climbedBoth_moved {path : List α} (above : 0 < place) (even : place % 2 = 0) :
    climbedBoth node place place path first second =
      climbedBoth node (place / 2) (place / 2) path first second := by
  rw [climbedBoth.eq_def, if_neg (by omega), if_neg (by omega), if_pos rfl]

theorem climbedBoth_right (above : 0 < last) (even : place % 2 = 0) (inside : place ≠ last) :
    climbedBoth node place last (sibling :: rest) first second =
      (second, sibling) :: climbedBoth node (place / 2) (last / 2) rest first
          (node second sibling) := by
  rw [climbedBoth, if_neg (by omega), if_neg (by omega), if_neg inside]

theorem climbedBoth_nil (inside : place ≤ last) :
    climbedBoth node place last [] first second = [] := by
  induction last using Nat.strongRecOn generalizing place with
  | ind last ih =>
    rw [climbedBoth]
    split
    · rfl
    · split
      · rfl
      · split
        · exact ih (last / 2) (by omega) (by omega)
        · rfl

end Pairs

structure Cut (depth : Nat) (first second : List α) : Prop where
  full : first.length = 2 ^ depth
  short : second.length ≤ 2 ^ depth
  rest : second ≠ []

section Cut

variable {node}

theorem root_pairUp_self (items : List α) :
    root node (pairUp node items) = root node items := by
  match items with
  | [] => rfl
  | [only] => rfl
  | left :: right :: others => exact root_pairUp node (by simp)

theorem siblings_step {place : Nat} {items : List α}
    (inside : place < items.length) :
    siblings node place items =
      (if place % 2 = 1 then items[place - 1]? else items[place + 1]?).toList ++
        siblings node (place / 2) (pairUp node items) := by
  by_cases several : 2 ≤ items.length
  · exact siblings_more several
  · obtain ⟨only, rfl⟩ := List.length_eq_one_iff.mp
      (show items.length = 1 by omega)
    obtain rfl : place = 0 := by simpa using inside
    rw [siblings_one (by simp), siblings_one (by simp [pairUp])]
    rfl

theorem joins_step (items : List α) :
    joins node items = level items ++ joins node (pairUp node items) := by
  match items with
  | [] => rw [joins.eq_def]; simp [level, pairUp, joins]
  | [only] => rw [joins.eq_def]; simp [level, pairUp, joins]
  | left :: right :: others => rw [joins, if_neg (by simp)]

theorem level_append : ∀ {first : List α} (second : List α),
    first.length % 2 = 0 → level (first ++ second) = level first ++ level second
  | left :: right :: rest, second, even => by
      have even' : rest.length % 2 = 0 := by
        simp only [List.length_cons] at even
        omega
      rw [List.cons_append, List.cons_append, level, level,
        level_append second even', List.cons_append]
  | [last], second, even => by simp at even
  | [], second, _ => rfl

variable {depth : Nat} {first second : List α}

theorem Cut.even (cut : Cut (depth + 1) first second) : first.length % 2 = 0 := by
  rw [cut.full, Nat.pow_succ]
  omega

theorem Cut.above (cut : Cut (depth + 1) first second) :
    Cut depth (pairUp node first) (pairUp node second) := by
  have full := cut.full
  have short := cut.short
  rw [Nat.pow_succ] at full short
  refine ⟨?_, ?_, ?_⟩
  · rw [pairUp_length]
    omega
  · rw [pairUp_length]
    omega
  · intro none
    have size := pairUp_length node second
    have rest := List.length_pos_iff.mpr cut.rest
    rw [none, List.length_nil] at size
    omega

theorem Cut.zero (cut : Cut 0 first second) :
    ∃ left right, first = [left] ∧ second = [right] := by
  obtain ⟨left, rfl⟩ := List.length_eq_one_iff.mp cut.full
  have rest := List.length_pos_iff.mpr cut.rest
  obtain ⟨right, rfl⟩ := List.length_eq_one_iff.mp
    (Nat.le_antisymm cut.short rest)
  exact ⟨left, right, rfl, rfl⟩

theorem Cut.root {left right : α} (cut : Cut depth first second)
    (ours : Pairing.root node first = some left)
    (theirs : Pairing.root node second = some right) :
    Pairing.root node (first ++ second) = some (node left right) := by
  induction depth generalizing first second with
  | zero =>
    obtain ⟨one, other, rfl, rfl⟩ := cut.zero
    rw [Pairing.root] at ours theirs
    cases ours
    cases theirs
    simp [Pairing.root, pairUp]
  | succ _ ih =>
    rw [← root_pairUp_self, pairUp_append node second cut.even]
    refine ih cut.above ?_ ?_
    · rw [root_pairUp_self, ours]
    · rw [root_pairUp_self, theirs]

theorem Cut.siblings_left {right : α} {place : Nat}
    (cut : Cut depth first second) (inside : place < first.length)
    (theirs : Pairing.root node second = some right) :
    siblings node place (first ++ second) =
      siblings node place first ++ [right] := by
  induction depth generalizing first second place with
  | zero =>
    obtain ⟨one, other, rfl, rfl⟩ := cut.zero
    obtain rfl : place = 0 := by simpa using inside
    rw [Pairing.root] at theirs
    cases theirs
    rw [siblings_more (by simp), siblings_one (by simp [pairUp]),
      siblings_one (by simp)]
    rfl
  | succ _ ih =>
    have even := cut.even
    have size := pairUp_length node first
    have led := @ih _ _ (place / 2) cut.above (by omega)
      ((root_pairUp_self second).trans theirs)
    rw [siblings_step (by rw [List.length_append]; omega), siblings_step inside,
      pairUp_append node second even, led, List.append_assoc]
    congr 2
    split
    · rw [List.getElem?_append_left (by omega)]
    · rw [List.getElem?_append_left (by omega)]

theorem Cut.siblings_right {left : α} {place : Nat}
    (cut : Cut depth first second) (inside : place < second.length)
    (ours : Pairing.root node first = some left) :
    siblings node (first.length + place) (first ++ second) =
      siblings node place second ++ [left] := by
  induction depth generalizing first second place with
  | zero =>
    obtain ⟨one, other, rfl, rfl⟩ := cut.zero
    obtain rfl : place = 0 := by simpa using inside
    rw [Pairing.root] at ours
    cases ours
    rw [siblings_more (by simp), siblings_one (by simp [pairUp]),
      siblings_one (by simp)]
    rfl
  | succ _ ih =>
    have even := cut.even
    have size := pairUp_length node first
    have size' := pairUp_length node second
    have led := @ih _ _ (place / 2) cut.above (by omega)
      ((root_pairUp_self first).trans ours)
    rw [siblings_step (by rw [List.length_append]; omega), siblings_step inside,
      pairUp_append node second even, List.append_assoc, ← led]
    have half : (first.length + place) / 2 =
        (pairUp node first).length + place / 2 := by omega
    rw [half]
    congr 2
    have parity : (first.length + place) % 2 = place % 2 := by omega
    rw [parity]
    split
    · rw [List.getElem?_append_right (by omega)]
      congr 1
      omega
    · rw [List.getElem?_append_right (by omega)]
      congr 1
      omega

theorem Cut.joins {left right : α} (cut : Cut depth first second)
    (ours : Pairing.root node first = some left)
    (theirs : Pairing.root node second = some right) {pair : α × α}
    (member : pair ∈ Pairing.joins node (first ++ second)) :
    pair ∈ Pairing.joins node first ∨ pair ∈ Pairing.joins node second ∨
      pair = (left, right) := by
  induction depth generalizing first second with
  | zero =>
    obtain ⟨one, other, rfl, rfl⟩ := cut.zero
    rw [Pairing.root] at ours theirs
    cases ours
    cases theirs
    rw [joins_step] at member
    simp [level, pairUp, Pairing.joins] at member
    exact .inr (.inr member)
  | succ _ ih =>
    rw [joins_step, level_append second cut.even,
      pairUp_append node second cut.even] at member
    rw [joins_step first, joins_step second]
    simp only [List.mem_append] at member ⊢
    rcases member with (lower | lower) | upper
    · exact .inl (.inl lower)
    · exact .inr (.inl (.inl lower))
    · rcases ih cut.above ((root_pairUp_self first).trans ours)
        ((root_pairUp_self second).trans theirs) upper with up | up | up
      · exact .inl (.inr up)
      · exact .inr (.inl (.inr up))
      · exact .inr (.inr up)

end Cut

/-- Joining can be undone on the pairs in use.  A pair with one proper side is
told from a pair of two; two improper sides may have been cut elsewhere. -/
structure Cancels (Proper : α → Prop) (used : α × α → Prop) : Prop where
  proper : ∀ left right, Proper (node left right)
  cancel : ∀ {left right other another : α}, used (left, right) →
    used (other, another) → Proper left ∨ Proper right → Proper other →
    Proper another → node left right = node other another →
    left = other ∧ right = another

structure Known (Proper : α → Prop) (used : α × α → Prop) (items : List α) :
    Prop where
  proper : ∀ item ∈ items, Proper item
  joined : ∀ pair ∈ joins node items, used pair

section Used

variable {node}

theorem mem_level : ∀ {items : List α} {place : Nat} {left right : α},
    items[2 * place]? = some left → items[2 * place + 1]? = some right →
      (left, right) ∈ level items
  | first :: second :: rest, 0, left, right, here, behind => by
      cases here
      cases behind
      exact List.mem_cons_self
  | first :: second :: rest, place + 1, left, right, here, behind => by
      exact List.mem_cons_of_mem _ (@mem_level rest place left right here behind)
  | [last], place, left, right, here, behind => by simp at behind
  | [], place, left, right, here, behind => by simp at here

variable {items : List α}

theorem mem_joins_level (several : 2 ≤ items.length) {pair : α × α}
    (member : pair ∈ level items) : pair ∈ joins node items := by
  rw [joins, if_neg (by omega)]
  exact List.mem_append_left _ member

theorem mem_joins_above (several : 2 ≤ items.length) {pair : α × α}
    (member : pair ∈ joins node (pairUp node items)) : pair ∈ joins node items := by
  rw [joins, if_neg (by omega)]
  exact List.mem_append_right _ member

variable {Proper : α → Prop} {used : α × α → Prop}

theorem Cancels.pairUp (cancels : Cancels node Proper used) :
    ∀ {items : List α}, (∀ item ∈ items, Proper item) →
      ∀ item ∈ Pairing.pairUp node items, Proper item
  | left :: right :: rest, proper, item, member => by
      rcases List.mem_cons.mp member with rfl | later
      · exact cancels.proper left right
      · exact Cancels.pairUp cancels (fun other inside => proper other
          (List.mem_cons_of_mem _ (List.mem_cons_of_mem _ inside))) item later
  | [last], proper, item, member => proper item member
  | [], proper, item, member => by cases member

theorem Known.above (cancels : Cancels node Proper used)
    (known : Known node Proper used items) (several : 2 ≤ items.length) :
    Known node Proper used (Pairing.pairUp node items) :=
  ⟨cancels.pairUp known.proper,
    fun pair member => known.joined pair (mem_joins_above several member)⟩

variable {place : Nat}

theorem Known.pair (known : Known node Proper used items) {left right : α}
    (here : items[2 * place]? = some left) (behind : items[2 * place + 1]? = some right) :
    used (left, right) ∧ Proper left ∧ Proper right := by
  have inside := (List.getElem?_eq_some_iff.mp behind).1
  exact ⟨known.joined _ (mem_joins_level (by omega) (mem_level here behind)),
    known.proper _ (List.mem_of_getElem? here),
    known.proper _ (List.mem_of_getElem? behind)⟩

theorem Known.cancel (cancels : Cancels node Proper used)
    (known : Known node Proper used items) (room : 2 * place + 1 < items.length)
    {left right : α} (walked : used (left, right)) (sided : Proper left ∨ Proper right)
    (above : (Pairing.pairUp node items)[place]? = some (node left right)) :
    items[2 * place]? = some left ∧ items[2 * place + 1]? = some right := by
  obtain ⟨first, here⟩ : ∃ first, items[2 * place]? = some first :=
    ⟨_, List.getElem?_eq_getElem (by omega)⟩
  obtain ⟨second, behind⟩ : ∃ second, items[2 * place + 1]? = some second :=
    ⟨_, List.getElem?_eq_getElem room⟩
  obtain ⟨inUse, properFirst, properSecond⟩ := known.pair here behind
  rw [pairUp_getElem?, here, behind] at above
  obtain ⟨rfl, rfl⟩ := cancels.cancel walked inUse sided properFirst
    properSecond (Option.some.inj above).symm
  exact ⟨here, behind⟩

theorem Known.agree (cancels : Cancels node Proper used)
    {shorter longer : List α} (known : Known node Proper used shorter)
    (other : Known node Proper used longer) {place : Nat}
    (room : 2 * place + 1 < shorter.length) (beyond : 2 * place + 1 < longer.length)
    (same : (Pairing.pairUp node shorter)[place]? =
      (Pairing.pairUp node longer)[place]?) :
    shorter[2 * place]? = longer[2 * place]? ∧
      shorter[2 * place + 1]? = longer[2 * place + 1]? := by
  obtain ⟨first, here⟩ : ∃ first, longer[2 * place]? = some first :=
    ⟨_, List.getElem?_eq_getElem (by omega)⟩
  obtain ⟨second, behind⟩ : ∃ second, longer[2 * place + 1]? = some second :=
    ⟨_, List.getElem?_eq_getElem beyond⟩
  obtain ⟨inUse, proper, -⟩ := other.pair here behind
  rw [here, behind]
  refine known.cancel cancels room inUse (.inl proper) ?_
  rw [same, pairUp_getElem?, here, behind]
  rfl

variable {last : Nat} {path : List α}

theorem climb_cases {reached top : α}
    (climbs : climb node place last path reached = some top)
    (walked : ∀ pair ∈ climbed node place last path reached, used pair) :
    (last = 0 ∧ reached = top) ∨
    (0 < last ∧ place % 2 = 1 ∧ ∃ sibling rest, used (sibling, reached) ∧
      climb node (place / 2) (last / 2) rest (node sibling reached) = some top ∧
      ∀ pair ∈ climbed node (place / 2) (last / 2) rest (node sibling reached),
        used pair) ∨ (0 < last ∧ place % 2 = 0 ∧ place = last ∧
      climb node (place / 2) (last / 2) path reached = some top ∧
      ∀ pair ∈ climbed node (place / 2) (last / 2) path reached, used pair) ∨
    (0 < last ∧ place % 2 = 0 ∧ place ≠ last ∧ ∃ sibling rest,
      used (reached, sibling) ∧
      climb node (place / 2) (last / 2) rest (node reached sibling) = some top ∧
      ∀ pair ∈ climbed node (place / 2) (last / 2) rest (node reached sibling),
        used pair) := by
  rw [climb.eq_def] at climbs
  rw [climbed.eq_def] at walked
  split at climbs
  · rename_i ground
    split at climbs
    · exact .inl ⟨ground, Option.some.inj climbs⟩
    · cases climbs
  · rename_i above
    rw [if_neg above] at walked
    split at climbs
    · rename_i odd
      rw [if_pos odd] at walked
      cases path with
      | nil => cases climbs
      | cons sibling rest =>
        refine .inr (.inl ⟨by omega, odd, sibling, rest, ?_, climbs, ?_⟩)
        · exact walked _ List.mem_cons_self
        · exact fun pair member => walked pair (List.mem_cons_of_mem _ member)
    · rename_i even
      rw [if_neg even] at walked
      split at climbs
      · rename_i ends
        rw [if_pos ends] at walked
        exact .inr (.inr (.inl ⟨by omega, by omega, ends, climbs, walked⟩))
      · rename_i inside
        rw [if_neg inside] at walked
        cases path with
        | nil => cases climbs
        | cons sibling rest =>
          refine .inr (.inr (.inr ⟨by omega, by omega, inside, sibling, rest,
            ?_, climbs, ?_⟩))
          · exact walked _ List.mem_cons_self
          · exact fun pair member => walked pair (List.mem_cons_of_mem _ member)

/-- Whatever path it is given, only the item of its place climbs to the root. -/
theorem climb_sound (cancels : Cancels node Proper used) {items : List α}
    (known : Known node Proper used items) {place : Nat} {path : List α}
    {reached : α} (inside : place < items.length) (own : Proper reached)
    (walked : ∀ pair ∈ climbed node place (items.length - 1) path reached,
      used pair) (climbs : climb node place (items.length - 1) path reached =
      root node items) : items[place]? = some reached := by
  generalize size : items.length = count at inside walked climbs
  induction count using Nat.strongRecOn generalizing items place path
      reached with
  | ind count ih =>
    obtain ⟨top, tops⟩ := Option.isSome_iff_exists.mp
      (@root_isSome α node items (by rintro rfl; simp at size; omega))
    have above : 2 ≤ count → ∀ path' parent,
        (∀ pair ∈ climbed node (place / 2) ((count - 1) / 2) path' parent,
          used pair) →
        climb node (place / 2) ((count - 1) / 2) path' parent = some top →
        Proper parent →
        (pairUp node items)[place / 2]? = some parent := by
      intro several path' parent walked climbs own
      have halves : (pairUp node items).length = (count + 1) / 2 := by
        rw [pairUp_length, size]
      have half : (count + 1) / 2 - 1 = (count - 1) / 2 := by omega
      refine @ih ((count + 1) / 2) (by omega) _
        (known.above cancels (by omega)) _ path' _ own halves (by omega) ?_ ?_
      · rw [half]
        exact walked
      · rw [half, root_pairUp node (by omega), tops]
        exact climbs
    rw [tops] at climbs
    rcases climb_cases climbs walked with ⟨ground, rfl⟩ |
      ⟨high, odd, sibling, rest, joined, climbs, walked⟩ |
      ⟨high, even, ends, climbs, walked⟩ |
      ⟨high, even, inner, sibling, rest, joined, climbs, walked⟩
    · obtain ⟨only, rfl⟩ := List.length_eq_one_iff.mp
        (show items.length = 1 by omega)
      obtain rfl : place = 0 := by omega
      rw [root] at tops
      exact tops
    · have parent := above (by omega) rest _ walked climbs
        (cancels.proper _ _)
      have split := (known.cancel cancels (by omega) joined (.inr own)
        parent).2
      rwa [show 2 * (place / 2) + 1 = place by omega] at split
    · have parent := above (by omega) path _ walked climbs own
      rw [pairUp_getElem?, show 2 * (place / 2) = place by omega,
        List.getElem?_eq_none (show items.length ≤ place + 1 by omega)] at parent
      cases here : items[place]? with
      | none => rw [here] at parent; cases parent
      | some => rw [here] at parent; exact parent
    · have parent := above (by omega) rest _ walked climbs
        (cancels.proper _ _)
      have split := (known.cancel cancels (by omega) joined (.inl own)
        parent).1
      rwa [show 2 * (place / 2) = place by omega] at split

theorem climbBoth_cases {place last : Nat} {path : List α}
    {first second : α} {tops : α × α}
    (climbs : climbBoth node place last path first second = some tops)
    (walked : ∀ pair ∈ climbedBoth node place last path first second, used pair) :
    (last = 0 ∧ (first, second) = tops) ∨
    (0 < last ∧ place % 2 = 1 ∧ ∃ sibling rest, used (sibling, first) ∧
      used (sibling, second) ∧
      climbBoth node (place / 2) (last / 2) rest (node sibling first)
        (node sibling second) = some tops ∧
      ∀ pair ∈ climbedBoth node (place / 2) (last / 2) rest (node sibling first)
        (node sibling second), used pair) ∨
    (0 < last ∧ place % 2 = 0 ∧ place = last ∧
      climbBoth node (place / 2) (last / 2) path first second = some tops ∧
      ∀ pair ∈ climbedBoth node (place / 2) (last / 2) path first second,
        used pair) ∨ (0 < last ∧ place % 2 = 0 ∧ place ≠ last ∧ ∃ sibling rest,
      used (second, sibling) ∧
      climbBoth node (place / 2) (last / 2) rest first (node second sibling) =
        some tops ∧ ∀ pair ∈ climbedBoth node (place / 2) (last / 2) rest first
        (node second sibling), used pair) := by
  rw [climbBoth.eq_def] at climbs
  rw [climbedBoth.eq_def] at walked
  split at climbs
  · rename_i ground
    split at climbs
    · exact .inl ⟨ground, Option.some.inj climbs⟩
    · cases climbs
  · rename_i above
    rw [if_neg above] at walked
    split at climbs
    · rename_i odd
      rw [if_pos odd] at walked
      cases path with
      | nil => cases climbs
      | cons sibling rest =>
        refine .inr (.inl ⟨by omega, odd, sibling, rest, ?_, ?_, climbs, ?_⟩)
        · exact walked _ List.mem_cons_self
        · exact walked _ (List.mem_cons_of_mem _ List.mem_cons_self)
        · exact fun pair member => walked pair
            (List.mem_cons_of_mem _ (List.mem_cons_of_mem _ member))
    · rename_i even
      rw [if_neg even] at walked
      split at climbs
      · rename_i ends
        rw [if_pos ends] at walked
        exact .inr (.inr (.inl ⟨by omega, by omega, ends, climbs, walked⟩))
      · rename_i inside
        rw [if_neg inside] at walked
        cases path with
        | nil => cases climbs
        | cons sibling rest =>
          refine .inr (.inr (.inr ⟨by omega, by omega, inside, sibling, rest,
            ?_, climbs, ?_⟩))
          · exact walked _ List.mem_cons_self
          · exact fun pair member => walked pair (List.mem_cons_of_mem _ member)

/-- Two lists, the shorter one ending at `place`, with their roots. -/
structure Ending (node : α → α → α) (Proper : α → Prop) (used : α × α → Prop)
    (place count : Nat) (shorter longer : List α) (tops : α × α) : Prop where
  known : Known node Proper used shorter
  other : Known node Proper used longer
  ends : shorter.length = place + 1
  size : longer.length = count
  inside : place < count
  root : Pairing.root node shorter = some tops.1
  root' : Pairing.root node longer = some tops.2

variable {count : Nat} {shorter longer : List α} {tops : α × α}

theorem Ending.above (cancels : Cancels node Proper used)
    (ending : Ending node Proper used place count shorter longer tops) (several : 2 ≤ count) :
    Ending node Proper used (place / 2) ((count + 1) / 2)
      (pairUp node shorter) (pairUp node longer) tops := by
  have ends := ending.ends
  have size := ending.size
  have inside := ending.inside
  refine ⟨?_, ending.other.above cancels (by omega), ?_, ?_, by omega, ?_, ?_⟩
  · by_cases single : shorter.length = 1
    · obtain ⟨only, rfl⟩ := List.length_eq_one_iff.mp single
      exact ending.known
    · exact ending.known.above cancels (by omega)
  · rw [pairUp_length]
    omega
  · rw [pairUp_length, size]
  · by_cases single : shorter.length = 1
    · obtain ⟨only, rfl⟩ := List.length_eq_one_iff.mp single
      exact ending.root
    · rw [root_pairUp node (by omega)]
      exact ending.root
  · rw [root_pairUp node (by omega)]
    exact ending.root'

theorem Ending.agree (cancels : Cancels node Proper used) {place count : Nat}
    {shorter longer : List α} {tops : α × α}
    (ending : Ending node Proper used place count shorter longer tops)
    (bound : Nat) (bounded : 2 * bound ≤ place + 1)
    (parents : ∀ before, before < bound →
      (pairUp node shorter)[before]? = (pairUp node longer)[before]?) :
    ∀ before, before < 2 * bound → shorter[before]? = longer[before]? := by
  intro before earlier
  have ends := ending.ends
  have size := ending.size
  have inside := ending.inside
  obtain ⟨left, right⟩ := ending.known.agree cancels ending.other
    (by omega) (by omega) (parents (before / 2) (by omega))
  rcases Nat.mod_two_eq_zero_or_one before with even | odd
  · rwa [show 2 * (before / 2) = before by omega] at left
  · rwa [show 2 * (before / 2) + 1 = before by omega] at right

theorem pairUp_last (even : place % 2 = 0) (ends : items.length = place + 1) :
    (pairUp node items)[place / 2]? = items[place]? := by
  obtain ⟨item, here⟩ : ∃ item, items[place]? = some item :=
    ⟨_, List.getElem?_eq_getElem (by omega)⟩
  rw [here]
  exact pairUp_above_last even here ends

variable {first second : α}

theorem climbBoth_apart (cancels : Cancels node Proper used)
    (ending : Ending node Proper used place count shorter longer tops) (own : Proper second)
    (walked : ∀ pair ∈ climbedBoth node place (count - 1) path first second, used pair)
    (climbs : climbBoth node place (count - 1) path first second = some tops) :
    shorter[place]? = some first ∧ longer[place]? = some second ∧
      ∀ before, before < place → shorter[before]? = longer[before]? := by
  induction count using Nat.strongRecOn generalizing shorter longer place path
      first second with
  | ind count ih =>
    have ends := ending.ends
    have size := ending.size
    have inside := ending.inside
    have above : 2 ≤ count → ∀ path' left right, Proper right →
        (∀ pair ∈ climbedBoth node (place / 2) ((count - 1) / 2) path' left
          right, used pair) →
        climbBoth node (place / 2) ((count - 1) / 2) path' left right =
          some tops →
        (pairUp node shorter)[place / 2]? = some left ∧
          (pairUp node longer)[place / 2]? = some right ∧
          ∀ before, before < place / 2 →
            (pairUp node shorter)[before]? = (pairUp node longer)[before]? := by
      intro several path' left right own walked climbs
      have half : (count + 1) / 2 - 1 = (count - 1) / 2 := by omega
      rw [← half] at walked climbs
      exact ih ((count + 1) / 2) (by omega) (ending.above cancels several) own
        walked climbs
    rcases climbBoth_cases climbs walked with ⟨ground, rfl⟩ |
      ⟨high, odd, sibling, rest, joined, joined', climbs, walked⟩ |
      ⟨high, even, last, climbs, walked⟩ |
      ⟨high, even, inner, sibling, rest, joined, climbs, walked⟩
    · obtain ⟨only, rfl⟩ := List.length_eq_one_iff.mp
        (show longer.length = 1 by omega)
      obtain ⟨other, rfl⟩ := List.length_eq_one_iff.mp
        (show shorter.length = 1 by omega)
      obtain rfl : place = 0 := by omega
      have root := ending.root
      have root' := ending.root'
      rw [Pairing.root] at root root'
      exact ⟨root, root', by omega⟩
    · obtain ⟨left, right, agree⟩ := above (by omega) rest _ _
        (cancels.proper _ _) walked climbs
      obtain ⟨before, here⟩ := ending.other.cancel cancels (by omega) joined'
        (.inr own) right
      have proper := ending.other.proper _ (List.mem_of_getElem? before)
      obtain ⟨before', here'⟩ := ending.known.cancel cancels (by omega) joined
        (.inl proper) left
      rw [show 2 * (place / 2) + 1 = place by omega] at here here'
      refine ⟨here', here, ?_⟩
      have paired := ending.agree cancels (place / 2) (by omega) agree
      intro place' earlier
      by_cases sibling' : place' = 2 * (place / 2)
      · rw [sibling', before', before]
      · exact paired place' (by omega)
    · obtain ⟨left, right, agree⟩ := above (by omega) path _ _ own walked climbs
      rw [pairUp_last even ends] at left
      rw [pairUp_last even (by omega)] at right
      refine ⟨left, right, fun before earlier => ?_⟩
      exact ending.agree cancels (place / 2) (by omega) agree before
        (by omega)
    · obtain ⟨left, right, agree⟩ := above (by omega) rest _ _
        (cancels.proper _ _) walked climbs
      rw [pairUp_last even ends] at left
      obtain ⟨here, -⟩ := ending.other.cancel cancels (by omega) joined
        (.inl own) right
      rw [show 2 * (place / 2) = place by omega] at here
      refine ⟨left, here, fun before earlier => ?_⟩
      exact ending.agree cancels (place / 2) (by omega) agree before
        (by omega)

/-- Two climbs from one seed reach both roots only if the lists agree, however
the seed was cut. -/
theorem climbBoth_sound (cancels : Cancels node Proper used)
    (ending : Ending node Proper used place count shorter longer tops) {seed : α}
    (walked : ∀ pair ∈ climbedBoth node place (count - 1) path seed seed, used pair)
    (climbs : climbBoth node place (count - 1) path seed seed = some tops) :
    ∀ before, before < place + 1 → shorter[before]? = longer[before]? := by
  induction count using Nat.strongRecOn generalizing shorter longer place path
      seed with
  | ind count ih =>
    have ends := ending.ends
    have size := ending.size
    have inside := ending.inside
    have half : (count + 1) / 2 - 1 = (count - 1) / 2 := by omega
    rcases climbBoth_cases climbs walked with ⟨ground, rfl⟩ |
      ⟨high, odd, sibling, rest, joined, joined', climbs, walked⟩ |
      ⟨high, even, last, climbs, walked⟩ |
      ⟨high, even, inner, sibling, rest, joined, climbs, walked⟩
    · obtain ⟨only, rfl⟩ := List.length_eq_one_iff.mp
        (show longer.length = 1 by omega)
      obtain ⟨other, rfl⟩ := List.length_eq_one_iff.mp
        (show shorter.length = 1 by omega)
      obtain rfl : place = 0 := by omega
      have root := ending.root
      have root' := ending.root'
      rw [Pairing.root] at root root'
      intro before earlier
      obtain rfl : before = 0 := by omega
      exact root.trans root'.symm
    · rw [← half] at walked climbs
      have agree := ih ((count + 1) / 2) (by omega)
        (ending.above cancels (by omega)) walked climbs
      intro before earlier
      exact ending.agree cancels (place / 2 + 1) (by omega) agree
        before (by omega)
    · rw [← half] at walked climbs
      have agree := ih ((count + 1) / 2) (by omega)
        (ending.above cancels (by omega)) walked climbs
      intro before earlier
      by_cases final : before = place
      · have top := agree (place / 2) (by omega)
        rw [pairUp_last even ends, pairUp_last even (by omega)] at top
        rw [final, top]
      · refine ending.agree cancels (place / 2) (by omega) ?_ before
          (by omega)
        exact fun earlier' below => agree earlier' (by omega)
    · rw [← half] at walked climbs
      obtain ⟨left, right, agree⟩ := climbBoth_apart cancels
        (ending.above cancels (by omega)) (cancels.proper _ _) walked climbs
      rw [pairUp_last even ends] at left
      have proper := ending.known.proper _ (List.mem_of_getElem? left)
      obtain ⟨here, -⟩ := ending.other.cancel cancels (by omega) joined
        (.inl proper) right
      rw [show 2 * (place / 2) = place by omega] at here
      intro before earlier
      by_cases final : before = place
      · rw [final, left, here]
      · exact ending.agree cancels (place / 2) (by omega) agree before
          (by omega)

/-! Trees compared from where the shorter one ends. -/

/-- Levels on which `place` has its sibling on the left are skipped. -/
def leftBranch (place last : Nat) : Nat × Nat :=
  if place % 2 = 1 then leftBranch (place / 2) (last / 2) else (place, last)
termination_by place
decreasing_by omega

theorem leftBranch_odd (odd : place % 2 = 1) :
    leftBranch place last = leftBranch (place / 2) (last / 2) := by
  rw [leftBranch.eq_def, if_pos odd]

theorem leftBranch_even (even : place % 2 = 0) :
    leftBranch place last = (place, last) := by
  rw [leftBranch, if_neg (by omega)]

theorem leftBranch_le (inside : place ≤ last) :
    (leftBranch place last).1 ≤ (leftBranch place last).2 ∧
      (leftBranch place last).2 ≤ last := by
  induction place using Nat.strongRecOn generalizing last with
  | ind place ih =>
    rcases Nat.mod_two_eq_zero_or_one place with even | odd
    · rw [leftBranch_even even]
      exact ⟨inside, Nat.le_refl last⟩
    · rw [leftBranch_odd odd]
      have half := ih (place / 2) (by omega)
        (show place / 2 ≤ last / 2 by omega)
      omega

theorem leftBranch_sound (cancels : Cancels node Proper used)
    (ending : Ending node Proper used place count shorter longer tops) {seed : α}
    (walked : ∀ pair ∈
      climbedBoth node (leftBranch place (count - 1)).1 (leftBranch place (count - 1)).2 path seed
        seed, used pair)
    (climbs : climbBoth node (leftBranch place (count - 1)).1 (leftBranch place (count - 1)).2
      path seed seed = some tops) :
    ∀ before, before < place + 1 → shorter[before]? = longer[before]? := by
  induction place using Nat.strongRecOn generalizing count shorter longer with
  | ind place ih =>
    have inside := ending.inside
    rcases Nat.mod_two_eq_zero_or_one place with even | odd
    · rw [leftBranch_even even] at walked climbs
      exact climbBoth_sound cancels ending walked climbs
    · have half : (count + 1) / 2 - 1 = (count - 1) / 2 := by omega
      rw [leftBranch_odd odd, ← half] at walked climbs
      have agree := ih (place / 2) (by omega)
        (ending.above cancels (by omega)) walked climbs
      intro before earlier
      exact ending.agree cancels (place / 2 + 1) (by omega) agree before
        (by omega)

theorem root_injective (cancels : Cancels node Proper used)
    {first second : List α} (known : Known node Proper used first)
    (other : Known node Proper used second) (size : first.length = second.length)
    (same : root node first = root node second) : first = second := by
  generalize count : first.length = places
  induction places using Nat.strongRecOn generalizing first second with
  | ind places ih =>
    by_cases several : 2 ≤ places
    · have above := ih ((places + 1) / 2) (by omega)
        (known.above cancels (by omega)) (other.above cancels (by omega))
        (by rw [pairUp_length, pairUp_length, size])
        (by rw [root_pairUp_self, root_pairUp_self, same])
        (by rw [pairUp_length, count])
      apply List.ext_getElem?
      intro place
      by_cases paired : 2 * (place / 2) + 1 < first.length
      · have pair := @Known.agree α node Proper used cancels first second known
          other (place / 2) paired (by omega) (by rw [above])
        rcases Nat.mod_two_eq_zero_or_one place with even | odd
        · have left := pair.1
          rwa [show 2 * (place / 2) = place by omega] at left
        · have right := pair.2
          rwa [show 2 * (place / 2) + 1 = place by omega] at right
      · by_cases last : first.length = place + 1
        · have top := congrArg (fun items => items[place / 2]?) above
          rwa [pairUp_last (by omega) last, pairUp_last (by omega)
            (size ▸ last)] at top
        · rw [List.getElem?_eq_none (by omega), List.getElem?_eq_none (by omega)]
    · match first, second, size with
      | [], [], _ => rfl
      | [one], [two], _ =>
        rw [root, root] at same
        rw [Option.some.inj same]
      | _ :: _ :: _, _, _ =>
        simp only [List.length_cons] at count
        omega

/-- The sibling may stand for the item, if that one is on the left. -/
theorem climb_sound_right (cancels : Cancels node Proper used)
    (known : Known node Proper used items) {rest : List α} {sibling reached : α}
    (even : place % 2 = 0) (inside : place + 1 < items.length) (own : Proper sibling)
    (walked : ∀ pair ∈ climbed node place (items.length - 1) (sibling :: rest) reached, used pair)
    (climbs : climb node place (items.length - 1) (sibling :: rest) reached = root node items) :
    items[place]? = some reached := by
  rw [climbed_right (by omega) even (by omega)] at walked
  rw [climb_right (by omega) even (by omega)] at climbs
  have half : (pairUp node items).length - 1 = (items.length - 1) / 2 := by
    rw [pairUp_length]
    omega
  have above := climb_sound cancels (known.above cancels (by omega))
    (show place / 2 < (pairUp node items).length by rw [pairUp_length]; omega)
    (cancels.proper reached sibling)
    (by rw [half]; exact fun pair later => walked pair (List.mem_cons_of_mem _ later))
    (by rw [half, root_pairUp_self]; exact climbs)
  have split := known.cancel cancels (by omega) (walked _ List.mem_cons_self)
    (.inr own) above
  rw [show 2 * (place / 2) = place by omega] at split
  exact split.1

theorem climbBoth_second {place last : Nat} {path : List α} {first second : α} :
    (climbBoth node place last path first second).map Prod.snd =
      climb node place last path second := by
  induction last using Nat.strongRecOn generalizing place path first second with
  | ind last ih =>
    rw [climbBoth.eq_def, climb.eq_def]
    by_cases top : last = 0
    · rw [if_pos top, if_pos top]
      cases path <;> rfl
    · rw [if_neg top, if_neg top]
      split
      · cases path with
        | nil => rfl
        | cons => exact ih (last / 2) (by omega)
      · split
        · exact ih (last / 2) (by omega)
        · cases path with
          | nil => rfl
          | cons => exact ih (last / 2) (by omega)

theorem climbed_subset_both : climbed node place last path second ⊆
      climbedBoth node place last path first second := by
  induction last using Nat.strongRecOn generalizing place path first second with
  | ind last ih =>
    rw [climbedBoth.eq_def, climbed.eq_def]
    by_cases top : last = 0
    · rw [if_pos top, if_pos top]
      exact List.Subset.refl _
    · rw [if_neg top, if_neg top]
      split
      · cases path with
        | nil => exact List.Subset.refl _
        | cons =>
          refine List.Subset.trans ?_ (List.subset_cons_self _ _)
          exact List.cons_subset_cons _ (ih (last / 2) (by omega))
      · split
        · exact ih (last / 2) (by omega)
        · cases path with
          | nil => exact List.Subset.refl _
          | cons =>
            exact List.cons_subset_cons _ (ih (last / 2) (by omega))

/-- At the left edge the shorter tree is already whole. -/
theorem climbBoth_zero (climbs : climbBoth node 0 last path first second = some tops) :
    tops.1 = first := by
  induction last using Nat.strongRecOn generalizing path second with
  | ind last ih =>
    rcases @climbBoth_cases _ _ (fun _ => True) _ _ _ _ _ _ climbs
      (fun _ _ => trivial) with ⟨-, rfl⟩ | ⟨-, odd, -⟩ | ⟨high, -, ends, -⟩ |
        ⟨high, -, -, sibling, rest, -, climbs, -⟩
    · rfl
    · cases odd
    · omega
    · exact ih (last / 2) (by omega) climbs

end Used

end Levels

end Graphorin.Lib.Pairing
