import Graphorin.Lib.Pool

namespace Graphorin.Lib

/-! What a program asks for depends on what it has been told.  `asks` bounds
every call by the program's own trace, whatever the answers are; in a pool this
holds of every process under every schedule, so that an invariant of the shared
state is proved one call at a time. -/

namespace Program

variable {I : Interface} {ω ε α β : Type}

def heeds (asks : List (Action I ω) → I.Op → Prop)
    (post : Except ε α → List (Action I ω) → Prop) :
    Program I ω ε α → List (Action I ω) → Prop
  | .done value, past => post (.ok value) past
  | .fail error, past => post (.error error) past
  | .emit obs next, past => next.heeds asks post (past ++ [.told obs])
  | .call op next, past =>
    asks past op ∧
      ∀ answer, (next answer).heeds asks post (past ++ [.called op answer])

variable {asks : List (Action I ω) → I.Op → Prop}
variable {past : List (Action I ω)}

variable {post : Except ε α → List (Action I ω) → Prop}

@[simp] theorem heeds_done {value : α} :
    (Program.done value : Program I ω ε α).heeds asks post past ↔
      post (.ok value) past := Iff.rfl

@[simp] theorem heeds_fail {error : ε} :
    (Program.fail error : Program I ω ε α).heeds asks post past ↔
      post (.error error) past := Iff.rfl

theorem heeds_call {op : I.Op} {next : I.Res op → Program I ω ε α} :
    (Program.call op next).heeds asks post past ↔ asks past op ∧ ∀ answer,
        (next answer).heeds asks post (past ++ [.called op answer]) := Iff.rfl

variable {program : Program I ω ε α}

theorem heeds_mono {weak strong : Except ε α → List (Action I ω) → Prop}
    (implies : ∀ result past, strong result past → weak result past)
    (holds : program.heeds asks strong past) : program.heeds asks weak past := by
  induction program generalizing past with
  | done => exact implies _ _ holds
  | fail => exact implies _ _ holds
  | emit obs next ih => exact ih holds
  | call op next ih => exact ⟨holds.1, fun answer => ih answer (holds.2 answer)⟩

def heeding (asks : List (Action I ω) → I.Op → Prop) (f : α → Program I ω ε β)
    (post : Except ε β → List (Action I ω) → Prop) :
    Except ε α → List (Action I ω) → Prop
  | .ok value, past => (f value).heeds asks post past
  | .error error, past => post (.error error) past

theorem heeds_bind {post : Except ε β → List (Action I ω) → Prop} {f : α → Program I ω ε β} :
    (program.bind f).heeds asks post past ↔
      program.heeds asks (heeding asks f post) past := by
  induction program generalizing past with
  | done => exact Iff.rfl
  | fail => exact Iff.rfl
  | emit obs next ih => exact ih
  | call op next ih =>
    rw [bind_call_left, heeds_call, heeds_call]
    exact and_congr_right fun _ => forall_congr' fun answer => ih answer

def heedingFailure (asks : List (Action I ω) → I.Op → Prop)
    (handler : ε → Program I ω ε α)
    (post : Except ε α → List (Action I ω) → Prop) :
    Except ε α → List (Action I ω) → Prop
  | .ok value, past => post (.ok value) past
  | .error error, past => (handler error).heeds asks post past

theorem heeds_catchFail {handler : ε → Program I ω ε α} :
    (program.catchFail handler).heeds asks post past ↔
      program.heeds asks (heedingFailure asks handler post) past := by
  induction program generalizing past with
  | done => exact Iff.rfl
  | fail => exact Iff.rfl
  | emit obs next ih => exact ih
  | call op next ih =>
    exact and_congr_right fun _ => forall_congr' fun answer => ih answer

end Program

namespace Pool

variable {I : Interface} {ω ε α σ ι : Type} [DecidableEq ι]
variable {handle : Handler I σ}

def Heeds (asks : ι → List (Action I ω) → I.Op → Prop)
    (posts : ι → Except ε α → List (Action I ω) → Prop)
    (pool : Pool I ω ε α σ ι) : Prop :=
  ∀ process, (pool.rest process).heeds (asks process) (posts process)
    (pool.trace process)

section Heeds

variable {asks : ι → List (Action I ω) → I.Op → Prop}
variable {posts : ι → Except ε α → List (Action I ω) → Prop}
variable {pool : Pool I ω ε α σ ι}

variable {process : ι}

theorem Heeds.advance (heeds : pool.Heeds asks posts) {rest : Program I ω ε α}
    {action : Action I ω} {store : σ}
    (own : rest.heeds (asks process) (posts process) (pool.trace process ++ [action])) :
    (pool.advance process rest action store).Heeds asks posts := by
  intro other
  by_cases same : other = process
  · subst same
    simpa [Pool.advance] using own
  · simpa [Pool.advance, Function.update_of_ne same] using heeds other

theorem Heeds.move (heeds : pool.Heeds asks posts) (process : ι) :
    (pool.move handle process).Heeds asks posts := by
  have own := heeds process
  unfold Pool.move
  cases waiting : pool.rest process with
  | done => exact heeds
  | fail => exact heeds
  | emit =>
    rw [waiting] at own
    exact heeds.advance own
  | call =>
    rw [waiting] at own
    exact heeds.advance (own.2 _)

omit [DecidableEq ι] in
theorem Heeds.ended (heeds : pool.Heeds asks posts) {value : α}
    (ended : pool.rest process = .done value) :
    posts process (.ok value) (pool.trace process) := by
  have own := heeds process
  rwa [ended] at own

end Heeds

variable {pool : Pool I ω ε α σ ι} {process : ι}

theorem move_done {value : α} (waiting : pool.rest process = .done value) :
    pool.move handle process = pool := by
  unfold move
  rw [waiting]

theorem move_fail {error : ε} (waiting : pool.rest process = .fail error) :
    pool.move handle process = pool := by
  unfold move
  rw [waiting]

theorem move_emit {obs : ω} {next : Program I ω ε α}
    (waiting : pool.rest process = .emit obs next) : pool.move handle process =
      pool.advance process next (.told obs) pool.store := by
  unfold move
  rw [waiting]

variable {op : I.Op}

theorem move_call {next : I.Res op → Program I ω ε α}
    (waiting : pool.rest process = .call op next) : pool.move handle process =
      pool.advance process (next (handle op pool.store).1)
        (.called op (handle op pool.store).1) (handle op pool.store).2 := by
  unfold move
  rw [waiting]

variable {rest : Program I ω ε α} {action : Action I ω} {store : σ}

theorem mem_trace_advance {other : ι} {past : Action I ω} :
    past ∈ (pool.advance process rest action store).trace other ↔
      past ∈ pool.trace other ∨ (other = process ∧ past = action) := by
  by_cases same : other = process
  · subst same
    simp [Pool.advance]
  · simp [Pool.advance, same]

def Entitled (asks : ι → List (Action I ω) → I.Op → Prop)
    (pool : Pool I ω ε α σ ι) : Prop :=
  ∀ process before op answer after,
    pool.trace process = before ++ .called op answer :: after →
      asks process before op

variable {asks : ι → List (Action I ω) → I.Op → Prop}

theorem Entitled.advance (entitled : pool.Entitled asks)
    (own : ∀ op answer, action = .called op answer → asks process (pool.trace process) op) :
    (pool.advance process rest action store).Entitled asks := by
  intro other before op answer after split
  by_cases same : other = process
  · subst same
    simp only [Pool.advance, Function.update_self] at split
    rcases List.eq_nil_or_concat after with rfl | ⟨after', last, rfl⟩
    · obtain ⟨rfl, here⟩ := List.append_inj' split rfl
      exact own op answer (List.singleton_inj.mp here)
    · rw [List.concat_eq_append, ← List.cons_append, ← List.append_assoc] at split
      obtain ⟨earlier, -⟩ := List.append_inj' split rfl
      exact entitled _ _ _ _ _ earlier
  · simp only [Pool.advance, Function.update_of_ne same] at split
    exact entitled _ _ _ _ _ split

theorem Entitled.move {posts : ι → Except ε α → List (Action I ω) → Prop}
    (entitled : pool.Entitled asks) (heeds : pool.Heeds asks posts) (process : ι) :
    (pool.move handle process).Entitled asks := by
  have own := heeds process
  cases waiting : pool.rest process with
  | done => rwa [move_done waiting]
  | fail => rwa [move_fail waiting]
  | emit =>
    rw [move_emit waiting]
    exact entitled.advance fun op answer same => by cases same
  | call =>
    rw [waiting] at own
    rw [move_call waiting]
    exact entitled.advance fun op' answer same => by cases same; exact own.1

omit [DecidableEq ι] in
theorem Entitled.mem (entitled : pool.Entitled asks) {answer : I.Res op}
    (listed : .called op answer ∈ pool.trace process) :
    ∃ before, asks process before op ∧ ∀ action ∈ before,
      action ∈ pool.trace process := by
  obtain ⟨before, after, split⟩ := List.append_of_mem listed
  exact ⟨before, entitled _ _ _ _ _ split, fun action member => by simp [split, member]⟩

omit [DecidableEq ι] in
/-- Of two calls on record, one was asked for after the other. -/
theorem Entitled.order (entitled : pool.Entitled asks) {one other : I.Op}
    {answer : I.Res one} {answer' : I.Res other}
    (first : .called one answer ∈ pool.trace process)
    (second : .called other answer' ∈ pool.trace process)
    (apart : Action.called (ω := ω) one answer ≠ .called other answer') :
    (∃ before, asks process before other ∧ .called one answer ∈ before) ∨
      ∃ before, asks process before one ∧ .called other answer' ∈ before := by
  obtain ⟨before, after, split⟩ := List.append_of_mem first
  rw [split, List.mem_append, List.mem_cons] at second
  rcases second with earlier | same | later
  · exact .inr ⟨before, entitled _ _ _ _ _ split, earlier⟩
  · exact absurd same.symm apart
  · obtain ⟨between, rest, split'⟩ := List.append_of_mem later
    refine .inl ⟨before ++ .called one answer :: between, ?_, by simp⟩
    exact entitled _ _ _ answer' rest (by rw [split, split']; simp)

/-- Every move of the schedule meets a condition on the pool it is made in. -/
def Along (handle : Handler I σ) (meets : Pool I ω ε α σ ι → ι → Prop) :
    List ι → Pool I ω ε α σ ι → Prop
  | [], _ => True
  | process :: schedule, pool =>
    meets pool process ∧ Along handle meets schedule (pool.move handle process)

variable {meets : Pool I ω ε α σ ι → ι → Prop}

instance decidableAlong [∀ pool process, Decidable (meets pool process)] :
    (schedule : List ι) → (pool : Pool I ω ε α σ ι) →
      Decidable (pool.Along handle meets schedule)
  | [], _ => isTrue trivial
  | process :: schedule, pool =>
    have := decidableAlong schedule (pool.move handle process)
    inferInstanceAs (Decidable (_ ∧ _))

variable {schedule : List ι}

theorem along_mono {weak : Pool I ω ε α σ ι → ι → Prop}
    (implies : ∀ pool process, meets pool process → weak pool process)
    (along : pool.Along handle meets schedule) : pool.Along handle weak schedule := by
  induction schedule generalizing pool with
  | nil => trivial
  | cons process schedule ih => exact ⟨implies _ _ along.1, ih along.2⟩

theorem along_append {first second : List ι} :
    pool.Along handle meets (first ++ second) ↔ pool.Along handle meets first ∧
        (pool.play handle first).Along handle meets second := by
  induction first generalizing pool with
  | nil => simp [Along, play]
  | cons process first ih => simp [Along, play, ih, and_assoc]

/-- What every move keeps, a run keeps. -/
theorem play_keeps {keeps : Pool I ω ε α σ ι → Prop}
    (step : ∀ pool process, keeps pool → meets pool process → keeps (pool.move handle process))
    (along : pool.Along handle meets schedule) (holds : keeps pool) :
    keeps (pool.play handle schedule) := by
  induction schedule generalizing pool with
  | nil => exact holds
  | cons process _ ih =>
    exact ih along.2 (step pool process holds along.1)

end Pool

end Graphorin.Lib
