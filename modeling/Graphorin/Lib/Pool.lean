import Graphorin.Lib.Program
import Mathlib.Logic.Function.Basic

namespace Graphorin.Lib

/-! Programs interleaved over one shared state.  A schedule names, move by
move, the process that takes the next node of its tree; a call is atomic and
anything may happen between two of them. -/

structure Pool (I : Interface) (ω ε α σ ι : Type) where
  store : σ
  rest : ι → Program I ω ε α
  trace : ι → List (Action I ω)

variable {I : Interface} {ω ε α β σ ι : Type}

namespace Pool

def start (programs : ι → Program I ω ε α) (store : σ) : Pool I ω ε α σ ι :=
  ⟨store, programs, fun _ => []⟩

variable [DecidableEq ι]

def advance (pool : Pool I ω ε α σ ι) (process : ι) (rest : Program I ω ε α)
    (action : Action I ω) (store : σ) : Pool I ω ε α σ ι where
  store := store
  rest := Function.update pool.rest process rest
  trace := Function.update pool.trace process (pool.trace process ++ [action])

/-- One move of one process; none once it has ended. -/
def move (handle : Handler I σ) (pool : Pool I ω ε α σ ι) (process : ι) :
    Pool I ω ε α σ ι :=
  match pool.rest process with
  | .done _ => pool
  | .fail _ => pool
  | .emit obs next => pool.advance process next (.told obs) pool.store
  | .call op next =>
    let answered := handle op pool.store
    pool.advance process (next answered.1) (.called op answered.1) answered.2

def play (handle : Handler I σ) :
    List ι → Pool I ω ε α σ ι → Pool I ω ε α σ ι
  | [], pool => pool
  | process :: schedule, pool => play handle schedule (pool.move handle process)

/-- Every call of the schedule meets `admits` in the state it is made in. -/
def Admitted (handle : Handler I σ) (admits : σ → I.Op → Prop) :
    List ι → Pool I ω ε α σ ι → Prop
  | [], _ => True
  | process :: schedule, pool =>
    (match pool.rest process with
      | .call op _ => admits pool.store op
      | _ => True) ∧
      Admitted handle admits schedule (pool.move handle process)

instance decidableAdmitted (handle : Handler I σ) (admits : σ → I.Op → Prop)
    [∀ store op, Decidable (admits store op)] :
    (schedule : List ι) → (pool : Pool I ω ε α σ ι) →
      Decidable (pool.Admitted handle admits schedule)
  | [], _ => isTrue trivial
  | process :: schedule, pool =>
    have := decidableAdmitted handle admits schedule (pool.move handle process)
    have : Decidable (match pool.rest process with
        | .call op _ => admits pool.store op
        | _ => True) :=
      match pool.rest process with
      | .call _ _ => inferInstance
      | .done _ => isTrue trivial
      | .fail _ => isTrue trivial
      | .emit _ _ => isTrue trivial
    inferInstanceAs (Decidable (_ ∧ _))

theorem admitted_always {handle : Handler I σ} (schedule : List ι)
    (pool : Pool I ω ε α σ ι) :
    pool.Admitted handle (fun _ _ => True) schedule := by
  induction schedule generalizing pool with
  | nil => trivial
  | cons process schedule ih =>
    refine ⟨?_, ih _⟩
    split <;> trivial

end Pool

/-! Rely and guarantee.  `rely` is what the others may do to the state between
two calls of a program, `guarantee` what the program does to it, `during` what
holds of the state and of its own trace all along. -/

structure Setting (I : Interface) (ω σ : Type) where
  rely : σ → σ → Prop
  guarantee : σ → σ → Prop
  admits : σ → I.Op → Prop
  during : σ → List (Action I ω) → Prop
  refl : ∀ store, rely store store
  trans : ∀ {first second third}, rely first second → rely second third →
    rely first third
  stable : ∀ {store later past}, rely store later → during store past →
    during later past

namespace Program

def ended : Program I ω ε α → Bool
  | .done _ => true
  | .fail _ => true
  | _ => false

def amid (handle : Handler I σ) (setting : Setting I ω σ)
    (post : Except ε α → σ → List (Action I ω) → Prop) :
    Program I ω ε α → σ → List (Action I ω) → Prop
  | .done value, store, past =>
    setting.during store past ∧ post (.ok value) store past
  | .fail error, store, past =>
    setting.during store past ∧ post (.error error) store past
  | .emit obs next, store, past =>
    setting.during store past ∧
      next.amid handle setting post store (past ++ [.told obs])
  | .call op next, store, past =>
    setting.during store past ∧
      ∀ later, setting.rely store later → setting.admits later op →
        setting.guarantee later (handle op later).2 ∧
          (next (handle op later).1).amid handle setting post
            (handle op later).2 (past ++ [.called op (handle op later).1])

section Rules

variable {handle : Handler I σ} {setting : Setting I ω σ}
variable {store : σ} {past : List (Action I ω)}

variable {post : Except ε α → σ → List (Action I ω) → Prop} {program : Program I ω ε α}

theorem amid_during (holds : program.amid handle setting post store past) :
    setting.during store past := by
  cases program with
  | done => exact holds.1
  | fail => exact holds.1
  | emit => exact holds.1
  | call => exact holds.1

theorem amid_ended (holds : program.amid handle setting post store past)
    (ended : program.ended = true) : ∃ result, post result store past := by
  cases program with
  | done => exact ⟨_, holds.2⟩
  | fail => exact ⟨_, holds.2⟩
  | emit => cases ended
  | call => cases ended

/-- What a program that has ended ended with. -/
def outcome : Program I ω ε α → Option (Except ε α)
  | .done value => some (.ok value)
  | .fail error => some (.error error)
  | _ => none

theorem amid_outcome (holds : program.amid handle setting post store past)
    {result : Except ε α} (ended : program.outcome = some result) :
    post result store past := by
  cases program with
  | done =>
    cases ended
    exact holds.2
  | fail =>
    cases ended
    exact holds.2
  | emit => cases ended
  | call => cases ended

/-- What the others do leaves the proof of a program intact. -/
theorem amid_stable
    (kept : ∀ result store later past, setting.rely store later → post result store past →
      post result later past)
    {later : σ} (relied : setting.rely store later)
    (holds : program.amid handle setting post store past) :
    program.amid handle setting post later past := by
  induction program generalizing store past with
  | done =>
    exact ⟨setting.stable relied holds.1, kept _ _ _ _ relied holds.2⟩
  | fail =>
    exact ⟨setting.stable relied holds.1, kept _ _ _ _ relied holds.2⟩
  | emit obs next ih =>
    exact ⟨setting.stable relied holds.1, ih relied holds.2⟩
  | call =>
    refine ⟨setting.stable relied holds.1, ?_⟩
    intro latest onwards
    exact holds.2 latest (setting.trans relied onwards)

theorem amid_mono {strong weak : Except ε α → σ → List (Action I ω) → Prop}
    (implies : ∀ result store past, setting.during store past → strong result store past →
      weak result store past)
    (holds : program.amid handle setting strong store past) :
    program.amid handle setting weak store past := by
  induction program generalizing store past with
  | done => exact ⟨holds.1, implies _ _ _ holds.1 holds.2⟩
  | fail => exact ⟨holds.1, implies _ _ _ holds.1 holds.2⟩
  | emit obs next ih => exact ⟨holds.1, ih holds.2⟩
  | call op next ih =>
    refine ⟨holds.1, ?_⟩
    intro later relied admitted
    obtain ⟨guaranteed, onwards⟩ := holds.2 later relied admitted
    exact ⟨guaranteed, ih _ onwards⟩

/-- A trace only grows. -/
theorem amid_extends (holds : program.amid handle setting post store past) :
    program.amid handle setting (fun result store later => post result store later ∧
        ∃ more, later = past ++ more) store past := by
  induction program generalizing store past with
  | done => exact ⟨holds.1, holds.2, [], by simp⟩
  | fail => exact ⟨holds.1, holds.2, [], by simp⟩
  | emit obs next ih =>
    refine ⟨holds.1, amid_mono ?_ (ih holds.2)⟩
    rintro result store later - ⟨reached, more, rfl⟩
    exact ⟨reached, _, List.append_assoc _ _ _⟩
  | call op next ih =>
    refine ⟨holds.1, ?_⟩
    intro later relied admitted
    obtain ⟨guaranteed, onwards⟩ := holds.2 later relied admitted
    refine ⟨guaranteed, amid_mono ?_ (ih _ onwards)⟩
    rintro result store later - ⟨reached, more, rfl⟩
    exact ⟨reached, _, List.append_assoc _ _ _⟩

def amidst (handle : Handler I σ) (setting : Setting I ω σ)
    (f : α → Program I ω ε β)
    (post : Except ε β → σ → List (Action I ω) → Prop) :
    Except ε α → σ → List (Action I ω) → Prop
  | .ok value, store, past => (f value).amid handle setting post store past
  | .error error, store, past => post (.error error) store past

theorem amid_bind {post : Except ε β → σ → List (Action I ω) → Prop}
    {f : α → Program I ω ε β}
    (holds : program.amid handle setting (amidst handle setting f post) store past) :
    (program.bind f).amid handle setting post store past := by
  induction program generalizing store past with
  | done => exact holds.2
  | fail => exact holds
  | emit obs next ih => exact ⟨holds.1, ih holds.2⟩
  | call op next ih =>
    refine ⟨holds.1, ?_⟩
    intro later relied admitted
    obtain ⟨guaranteed, onwards⟩ := holds.2 later relied admitted
    exact ⟨guaranteed, ih _ onwards⟩

def rescued (handle : Handler I σ) (setting : Setting I ω σ)
    (handler : ε → Program I ω ε α)
    (post : Except ε α → σ → List (Action I ω) → Prop) :
    Except ε α → σ → List (Action I ω) → Prop
  | .ok value, store, past => post (.ok value) store past
  | .error error, store, past =>
    (handler error).amid handle setting post store past

theorem amid_catchFail {handler : ε → Program I ω ε α}
    (holds : program.amid handle setting (rescued handle setting handler post) store past) :
    (program.catchFail handler).amid handle setting post store past := by
  induction program generalizing store past with
  | done => exact holds
  | fail => exact holds.2
  | emit obs next ih => exact ⟨holds.1, ih holds.2⟩
  | call op next ih =>
    refine ⟨holds.1, ?_⟩
    intro later relied admitted
    obtain ⟨guaranteed, onwards⟩ := holds.2 later relied admitted
    exact ⟨guaranteed, ih _ onwards⟩

theorem amid_tellAll {post : Except ε Unit → σ → List (Action I ω) → Prop}
    {observations : List ω} (told : ∀ before after, observations = before ++ after →
      setting.during store (past ++ before.map .told))
    (ending : post (.ok ()) store (past ++ observations.map .told)) :
    (Program.tellAll observations : Program I ω ε Unit).amid handle setting
      post store past := by
  induction observations generalizing past with
  | nil => exact ⟨by simpa using told [] [] rfl, by simpa using ending⟩
  | cons obs _ ih =>
    refine ⟨by simpa using told [] _ rfl, ih ?_ (by simpa using ending)⟩
    intro before after split
    simpa using told (obs :: before) after (by rw [split]; rfl)

end Rules

end Program

namespace Pool

variable [DecidableEq ι] {handle : Handler I σ} {settings : ι → Setting I ω σ}
variable {posts : ι → Except ε α → σ → List (Action I ω) → Prop}

def Sound (handle : Handler I σ) (settings : ι → Setting I ω σ)
    (posts : ι → Except ε α → σ → List (Action I ω) → Prop)
    (pool : Pool I ω ε α σ ι) : Prop :=
  ∀ process, (pool.rest process).amid handle (settings process)
    (posts process) pool.store (pool.trace process)

variable (compatible : ∀ one other, one ≠ other → ∀ store later,
  (settings one).guarantee store later → (settings other).rely store later)
variable (kept : ∀ process result store later past,
  (settings process).rely store later → posts process result store past →
    posts process result later past)

include compatible kept

variable {pool : Pool I ω ε α σ ι}

variable {process : ι}

theorem Sound.advance {rest : Program I ω ε α} {action : Action I ω} {store : σ}
    (sound : pool.Sound handle settings posts)
    (changes : (settings process).guarantee pool.store store ∨ pool.store = store)
    (own : rest.amid handle (settings process)
      (posts process) store (pool.trace process ++ [action]))
    : (pool.advance process rest action store).Sound handle settings posts := by
  intro other
  unfold Pool.advance
  by_cases same : other = process
  · subst same
    simpa using own
  · simp only [Function.update_of_ne same]
    rcases changes with guaranteed | rfl
    · exact Program.amid_stable (kept other) (compatible process other
        (Ne.symm same) _ _ guaranteed) (sound other)
    · exact sound other

theorem Sound.move (sound : pool.Sound handle settings posts)
    (admitted : ∀ op next, pool.rest process = .call op next →
      (settings process).admits pool.store op)
    : (pool.move handle process).Sound handle settings posts := by
  have own := sound process
  unfold Pool.move
  cases waiting : pool.rest process with
  | done => exact sound
  | fail => exact sound
  | emit =>
    rw [waiting] at own
    exact sound.advance compatible kept (.inr rfl) own.2
  | call op next =>
    rw [waiting] at own
    obtain ⟨guaranteed, onwards⟩ := own.2 pool.store
      ((settings process).refl _) (admitted op next waiting)
    exact sound.advance compatible kept (.inl guaranteed) onwards

variable {admits : σ → I.Op → Prop} {schedule : List ι}

/-- Whatever the schedule, every process stays where its proof expects it. -/
theorem Sound.play
    (admitting : ∀ process store op, admits store op → (settings process).admits store op)
    (sound : pool.Sound handle settings posts)
    (admitted : pool.Admitted handle admits schedule) :
    (pool.play handle schedule).Sound handle settings posts := by
  induction schedule generalizing pool with
  | nil => exact sound
  | cons process schedule ih =>
    refine ih (sound.move compatible kept ?_) admitted.2
    intro op next waiting
    have here := admitted.1
    rw [waiting] at here
    exact admitting process _ _ here

/-- What every guarantee keeps, a whole run keeps. -/
theorem Sound.play_keeps
    (admitting : ∀ process store op, admits store op → (settings process).admits store op)
    {keeps : σ → σ → Prop} (refl : ∀ store, keeps store store)
    (trans : ∀ {first second third}, keeps first second → keeps second third → keeps first third)
    (each : ∀ process store later past, (settings process).during store past →
      (settings process).guarantee store later → keeps store later)
    (sound : pool.Sound handle settings posts)
    (admitted : pool.Admitted handle admits schedule) :
    keeps pool.store (pool.play handle schedule).store := by
  induction schedule generalizing pool with
  | nil => exact refl _
  | cons process schedule ih =>
    have here : ∀ op next, pool.rest process = .call op next →
        (settings process).admits pool.store op := by
      intro op next waiting
      have first := admitted.1
      rw [waiting] at first
      exact admitting process _ _ first
    refine trans ?_ (ih (sound.move compatible kept here) admitted.2)
    have own := sound process
    unfold Pool.move
    cases waiting : pool.rest process with
    | done => exact refl _
    | fail => exact refl _
    | emit => exact refl _
    | call op next =>
      rw [waiting] at own
      exact each process _ _ _ own.1
        (own.2 pool.store ((settings process).refl _) (here op next waiting)).1

end Pool

namespace Pool

variable [DecidableEq ι]

theorem play_append (handle : Handler I σ) (first second : List ι)
    (pool : Pool I ω ε α σ ι) : pool.play handle (first ++ second) =
      (pool.play handle first).play handle second := by
  induction first generalizing pool with
  | nil => rfl
  | cons process first ih => exact ih _

/-- Nothing blocks: a process that is given enough moves ends. -/
theorem ends_alone (handle : Handler I σ) (process : ι)
    (pool : Pool I ω ε α σ ι) : ∃ turns,
      ((pool.play handle (List.replicate turns process)).rest process).ended = true := by
  generalize waiting : pool.rest process = rest
  induction rest generalizing pool with
  | done => exact ⟨0, by simp only [List.replicate, play, waiting]; rfl⟩
  | fail => exact ⟨0, by simp only [List.replicate, play, waiting]; rfl⟩
  | emit obs next ih =>
    obtain ⟨turns, ends⟩ := ih (pool.move handle process)
      (by simp [Pool.move, waiting, advance])
    exact ⟨turns + 1, by rw [List.replicate_succ, play]; exact ends⟩
  | call op _ ih =>
    obtain ⟨turns, ends⟩ := ih (handle op pool.store).1 (pool.move handle process)
      (by simp [Pool.move, waiting, advance])
    exact ⟨turns + 1, by rw [List.replicate_succ, play]; exact ends⟩

end Pool

/-! Contracts on the calls alone.  `fed` is what a call needs, `yields` what its
answer promises; an invariant of the state vouches for the promises, however
the programs are interleaved. -/

namespace Program

variable {fed : I.Op → Prop} {yields : (op : I.Op) → I.Res op → Prop}

def abides (fed : I.Op → Prop) (yields : (op : I.Op) → I.Res op → Prop)
    (post : α → Prop) : Program I ω ε α → Prop
  | .done value => post value
  | .fail _ => True
  | .emit _ next => next.abides fed yields post
  | .call op next =>
    fed op ∧ ∀ answer, yields op answer → (next answer).abides fed yields post

theorem abides_mono {program : Program I ω ε α} {strong weak : α → Prop}
    (implies : ∀ value, strong value → weak value)
    (holds : program.abides fed yields strong) : program.abides fed yields weak := by
  induction program with
  | done value => exact implies value holds
  | fail => trivial
  | emit _ _ ih => exact ih holds
  | call _ _ ih =>
    refine ⟨holds.1, fun answer promised => ?_⟩
    exact ih answer (holds.2 answer promised)

theorem abides_bind {program : Program I ω ε α} {f : α → Program I ω ε β} {post : β → Prop}
    (holds : program.abides fed yields fun value => (f value).abides fed yields post) :
    (program.bind f).abides fed yields post := by
  induction program with
  | done => exact holds
  | fail => trivial
  | emit _ _ ih => exact ih holds
  | call _ _ ih =>
    refine ⟨holds.1, fun answer promised => ?_⟩
    exact ih answer (holds.2 answer promised)

theorem abides_catchFail {program : Program I ω ε α} {handler : ε → Program I ω ε α}
    {post : α → Prop} (holds : program.abides fed yields post)
    (handled : ∀ error, (handler error).abides fed yields post) :
    (program.catchFail handler).abides fed yields post := by
  induction program with
  | done => exact holds
  | fail error => exact handled error
  | emit _ _ ih => exact ih holds
  | call _ _ ih =>
    refine ⟨holds.1, fun answer promised => ?_⟩
    exact ih answer (holds.2 answer promised)

theorem abides_ofExcept {answer : Except ε α} {f : α → Program I ω ε β} {post : β → Prop}
    (ok : ∀ value, answer = .ok value → (f value).abides fed yields post) :
    ((Program.ofExcept answer : Program I ω ε α).bind f).abides fed yields post := by
  cases answer with
  | ok value => exact ok value rfl
  | error => trivial

end Program

namespace Pool

variable [DecidableEq ι] {handle : Handler I σ} {invariant : σ → Prop}
variable {fed : ι → I.Op → Prop} {yields : (op : I.Op) → I.Res op → Prop}

/-- The invariant holds, and what is left of each program keeps its contract. -/
structure Abiding (invariant : σ → Prop) (fed : ι → I.Op → Prop)
    (yields : (op : I.Op) → I.Res op → Prop) (posts : ι → α → Prop)
    (pool : Pool I ω ε α σ ι) : Prop where
  invariant : invariant pool.store
  rest : ∀ process, (pool.rest process).abides (fed process) yields (posts process)

variable {posts : ι → α → Prop} {pool : Pool I ω ε α σ ι}
variable (vouched : ∀ process op store, invariant store → fed process op →
  yields op (handle op store).1 ∧ invariant (handle op store).2)

section Moves

include vouched

theorem Abiding.move (abiding : pool.Abiding invariant fed yields posts) (process : ι) :
    (pool.move handle process).Abiding invariant fed yields posts := by
  have own := abiding.rest process
  have advanced {rest : Program I ω ε α} {action : Action I ω} {store : σ}
      (holds : invariant store) (left : rest.abides (fed process) yields (posts process)) :
      (pool.advance process rest action store).Abiding invariant fed yields posts := by
    refine ⟨holds, fun other => ?_⟩
    unfold Pool.advance
    by_cases same : other = process
    · subst same
      simpa using left
    · simpa only [Function.update_of_ne same] using abiding.rest other
  unfold Pool.move
  cases waiting : pool.rest process with
  | done => exact abiding
  | fail => exact abiding
  | emit =>
    rw [waiting] at own
    exact advanced abiding.invariant own
  | call op next =>
    rw [waiting] at own
    obtain ⟨promised, holds⟩ := vouched process op pool.store abiding.invariant own.1
    exact advanced holds (own.2 _ promised)

theorem Abiding.play (abiding : pool.Abiding invariant fed yields posts)
    (schedule : List ι) :
    (pool.play handle schedule).Abiding invariant fed yields posts := by
  induction schedule generalizing pool with
  | nil => exact abiding
  | cons process schedule ih => exact ih (abiding.move vouched process)

end Moves

/-- What some of the processes see of a pool: their part of the state, and one
another. -/
structure Seen (mine : ι → Bool) (view : σ → σ) (pool alone : Pool I ω ε α σ ι) : Prop where
  store : view pool.store = alone.store
  rest : ∀ process, mine process → pool.rest process = alone.rest process
  trace : ∀ process, mine process → pool.trace process = alone.trace process

variable {mine : ι → Bool} {view : σ → σ} {alone : Pool I ω ε α σ ι}

variable {process : ι} {rest : Program I ω ε α} {action : Action I ω} {store other : σ}

theorem Seen.own (seen : pool.Seen mine view alone) (own : mine process)
    (agree : view store = other) :
    (pool.advance process rest action store).Seen mine view
      (alone.advance process rest action other) where
  store := agree
  rest := by
    intro party belongs
    simp only [advance, Function.update_apply, seen.rest party belongs]
  trace := by
    intro party belongs
    simp only [advance, Function.update_apply, seen.trace party belongs,
      seen.trace process own]

theorem Seen.foreign (seen : pool.Seen mine view alone) (foreign : ¬ mine process)
    (unseen : view store = view pool.store) :
    (pool.advance process rest action store).Seen mine view alone where
  store := unseen.trans seen.store
  rest := by
    intro party belongs
    have apart : party ≠ process := by
      rintro rfl
      exact foreign belongs
    simpa only [advance, Function.update_of_ne apart] using seen.rest party belongs
  trace := by
    intro party belongs
    have apart : party ≠ process := by
      rintro rfl
      exact foreign belongs
    simpa only [advance, Function.update_of_ne apart] using seen.trace party belongs

variable (within : ∀ process op store, mine process → invariant store → fed process op →
  (handle op (view store)).1 = (handle op store).1 ∧
    (handle op (view store)).2 = view (handle op store).2)
variable (beyond : ∀ process op store, ¬ mine process → invariant store →
  fed process op → view (handle op store).2 = view store)

include vouched within beyond

/-- Where the calls of some processes only touch their part of the state, and those
of the others never do, they do among the others what they do alone. -/
theorem Seen.play (seen : pool.Seen mine view alone)
    (abiding : pool.Abiding invariant fed yields posts) (schedule : List ι) :
    (pool.play handle schedule).Seen mine view
      (alone.play handle (schedule.filter mine)) := by
  induction schedule generalizing pool alone with
  | nil => exact seen
  | cons process schedule ih =>
    have onward := abiding.move vouched process
    by_cases own : mine process = true
    · rw [List.filter_cons_of_pos own]
      refine ih ?_ onward
      have rest := seen.rest process own
      unfold Pool.move
      rw [← rest]
      cases waiting : pool.rest process with
      | done => exact seen
      | fail => exact seen
      | emit => exact seen.own own seen.store
      | call op next =>
        have asked := abiding.rest process
        rw [waiting] at asked
        obtain ⟨answer, left⟩ := within process op pool.store own abiding.invariant asked.1
        dsimp only
        rw [← seen.store, answer]
        exact seen.own own left.symm
    · rw [List.filter_cons_of_neg own]
      refine ih ?_ onward
      unfold Pool.move
      cases waiting : pool.rest process with
      | done => exact seen
      | fail => exact seen
      | emit => exact seen.foreign own rfl
      | call op next =>
        have asked := abiding.rest process
        rw [waiting] at asked
        exact seen.foreign own (beyond process op pool.store own abiding.invariant asked.1)

end Pool

end Graphorin.Lib
