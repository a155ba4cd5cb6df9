import Graphorin.Lib.Program

namespace Graphorin.Lib

/-! Pre- and postconditions for a program that runs alone against a store.
`stop` must hold wherever the program may be cut short, which is before each
of its calls; `post` holds of the result, the store and the observations so
far once it has ended. -/

def observed (trace : List (Action I ω)) : List ω :=
  trace.filterMap fun
    | .told obs => some obs
    | .called _ _ => none

@[simp] theorem observed_nil : observed ([] : List (Action I ω)) = [] := rfl

@[simp] theorem observed_told (obs : ω) (trace : List (Action I ω)) :
    observed (.told obs :: trace) = obs :: observed trace := rfl

@[simp] theorem observed_called (op : I.Op) (answer : I.Res op)
    (trace : List (Action I ω)) :
    observed (.called op answer :: trace) = observed trace := rfl

theorem mem_observed {trace : List (Action I ω)} {obs : ω} :
    obs ∈ observed trace ↔ .told obs ∈ trace := by
  induction trace with
  | nil => simp
  | cons action _ ih =>
    cases action with
    | told => simp [ih]
    | called => simp [ih]

namespace Program

variable {I : Interface} {ω ε α β σ : Type}

def ensures (handle : Handler I σ) (stop : σ → List ω → Prop)
    (post : Except ε α → σ → List ω → Prop) :
    Program I ω ε α → σ → List ω → Prop
  | .done value, store, past => post (.ok value) store past
  | .fail error, store, past => post (.error error) store past
  | .emit obs next, store, past =>
    next.ensures handle stop post store (past ++ [obs])
  | .call op next, store, past =>
    stop store past ∧
      (next (handle op store).1).ensures handle stop post (handle op store).2
        past

section Rules

variable {handle : Handler I σ} {stop : σ → List ω → Prop}

variable {post : Except ε α → σ → List ω → Prop} {store : σ} {past : List ω}

@[simp] theorem ensures_done {value : α} :
    (Program.done value : Program I ω ε α).ensures handle stop post store past ↔
      post (.ok value) store past := Iff.rfl

@[simp] theorem ensures_fail {error : ε} :
    (Program.fail error : Program I ω ε α).ensures handle stop post store past ↔
      post (.error error) store past := Iff.rfl

theorem ensures_emit {obs : ω} {next : Program I ω ε α} :
    (Program.emit obs next).ensures handle stop post store past ↔
      next.ensures handle stop post store (past ++ [obs]) := Iff.rfl

theorem ensures_call {op : I.Op} {next : I.Res op → Program I ω ε α} :
    (Program.call op next).ensures handle stop post store past ↔ stop store past ∧
        (next (handle op store).1).ensures handle stop post
          (handle op store).2 past := Iff.rfl

def followed (stop : σ → List ω → Prop) (handle : Handler I σ)
    (f : α → Program I ω ε β) (post : Except ε β → σ → List ω → Prop) :
    Except ε α → σ → List ω → Prop
  | .ok value, store, past => (f value).ensures handle stop post store past
  | .error error, store, past => post (.error error) store past

variable {program : Program I ω ε α}

theorem ensures_bind {post : Except ε β → σ → List ω → Prop} {f : α → Program I ω ε β} :
    (program.bind f).ensures handle stop post store past ↔
      program.ensures handle stop (followed stop handle f post) store past := by
  induction program generalizing store past with
  | done => exact Iff.rfl
  | fail => exact Iff.rfl
  | emit obs next ih => exact ih
  | call op next ih =>
    rw [bind_call_left, ensures_call, ensures_call]
    exact and_congr_right fun _ => ih _

def handled (stop : σ → List ω → Prop) (handle : Handler I σ)
    (handler : ε → Program I ω ε α) (post : Except ε α → σ → List ω → Prop) :
    Except ε α → σ → List ω → Prop
  | .ok value, store, past => post (.ok value) store past
  | .error error, store, past =>
    (handler error).ensures handle stop post store past

theorem ensures_catchFail {handler : ε → Program I ω ε α} :
    (program.catchFail handler).ensures handle stop post store past ↔
      program.ensures handle stop (handled stop handle handler post) store
        past := by
  induction program generalizing store past with
  | done => exact Iff.rfl
  | fail => exact Iff.rfl
  | emit obs next ih => exact ih
  | call op next ih =>
    show _ ∧ _ ↔ _ ∧ _
    exact and_congr_right fun _ => ih _

theorem ensures_mono {weak strong : Except ε α → σ → List ω → Prop}
    (implies : ∀ result store past, strong result store past → weak result store past)
    (holds : program.ensures handle stop strong store past) :
    program.ensures handle stop weak store past := by
  induction program generalizing store past with
  | done => exact implies _ _ _ holds
  | fail => exact implies _ _ _ holds
  | emit obs next ih => exact ih holds
  | call op next ih => exact ⟨holds.1, ih _ holds.2⟩

theorem ensures_and {first second : Except ε α → σ → List ω → Prop}
    (holds : program.ensures handle stop first store past)
    (also : program.ensures handle (fun _ _ => True) second store past) :
    program.ensures handle stop (fun result store past =>
        first result store past ∧ second result store past) store past := by
  induction program generalizing store past with
  | done => exact ⟨holds, also⟩
  | fail => exact ⟨holds, also⟩
  | emit obs next ih => exact ih holds also
  | call op next ih => exact ⟨holds.1, ih _ holds.2 also.2⟩

theorem ensures_tellAll {post : Except ε Unit → σ → List ω → Prop} {observations : List ω} :
    (Program.tellAll observations : Program I ω ε Unit).ensures handle stop post
        store past ↔ post (.ok ()) store (past ++ observations) := by
  induction observations generalizing past with
  | nil => simp [tellAll]
  | cons obs rest ih =>
    rw [tellAll, ensures_emit, ih, List.append_assoc, List.singleton_append]

theorem run_of_ensures (holds : program.ensures handle stop post store past) :
    post (program.run handle store).result (program.run handle store).final
      (past ++ observed (program.run handle store).trace) := by
  induction program generalizing store past with
  | done => simpa [run] using holds
  | fail => simpa [run] using holds
  | emit obs next ih => simpa [run] using ih holds
  | call op next ih => simpa [run] using ih _ holds.2

def stopped (stop : σ → List ω → Prop)
    (post : Except ε α → σ → List ω → Prop) :
    Option (Except ε α) → σ → List ω → Prop
  | none, store, past => stop store past
  | some result, store, past => post result store past

theorem runFor_of_ensures (limit : Nat)
    (holds : program.ensures handle stop post store past) :
    stopped stop post (program.runFor handle limit store).result
      (program.runFor handle limit store).final
      (past ++ observed (program.runFor handle limit store).trace) := by
  induction program generalizing store past limit with
  | done => simpa [runFor, stopped] using holds
  | fail => simpa [runFor, stopped] using holds
  | emit obs next ih => simpa [runFor] using ih limit holds
  | call op next ih =>
    cases limit with
    | zero => simpa [runFor, stopped] using holds.1
    | succ limit => simpa [runFor] using ih _ limit holds.2

end Rules

end Program

end Graphorin.Lib
