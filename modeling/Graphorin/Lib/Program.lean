namespace Graphorin.Lib

/-! Programs that talk to a shared store.  A program is a tree: it returns,
fails, reports an observation, or issues one atomic call and continues with
the answer.  The same tree is then given three meanings: run to its end, cut
short after some number of calls, or interleaved with other programs. -/

structure Interface where
  Op : Type
  Res : Op → Type

inductive Program (I : Interface) (ω ε α : Type) : Type
  | done (value : α)
  | fail (error : ε)
  | emit (obs : ω) (next : Program I ω ε α)
  | call (op : I.Op) (next : I.Res op → Program I ω ε α)

namespace Program

variable {I : Interface} {ω ε α β γ : Type}

protected def bind : Program I ω ε α → (α → Program I ω ε β) → Program I ω ε β
  | .done value, f => f value
  | .fail error, _ => .fail error
  | .emit obs next, f => .emit obs (next.bind f)
  | .call op next, f => .call op fun answer => (next answer).bind f

instance : Monad (Program I ω ε) where
  pure := .done
  bind := Program.bind

def catchFail : Program I ω ε α → (ε → Program I ω ε α) → Program I ω ε α
  | .done value, _ => .done value
  | .fail error, handler => handler error
  | .emit obs next, handler => .emit obs (next.catchFail handler)
  | .call op next, handler =>
    .call op fun answer => (next answer).catchFail handler

def tell (obs : ω) : Program I ω ε Unit := .emit obs (.done ())

def ofExcept : Except ε α → Program I ω ε α
  | .ok value => .done value
  | .error error => .fail error

def tellAll : List ω → Program I ω ε Unit
  | [] => .done ()
  | obs :: rest => .emit obs (tellAll rest)

theorem pure_eq (value : α) : (pure value : Program I ω ε α) = .done value := rfl

theorem bind_eq (program : Program I ω ε α) (f : α → Program I ω ε β) :
    program >>= f = program.bind f := rfl

@[simp] theorem bind_call_left (op : I.Op)
    (next : I.Res op → Program I ω ε α) (f : α → Program I ω ε β) :
    (Program.call op next).bind f = .call op fun answer => (next answer).bind f :=
  rfl

end Program

inductive Action (I : Interface) (ω : Type) : Type
  | called (op : I.Op) (answer : I.Res op)
  | told (obs : ω)

/-- Atomic meaning of every call on a shared state. -/
abbrev Handler (I : Interface) (σ : Type) := (op : I.Op) → σ → I.Res op × σ

structure Run (I : Interface) (ω σ ρ : Type) where
  trace : List (Action I ω)
  result : ρ
  final : σ

namespace Program

variable {I : Interface} {ω ε α β σ : Type}

/-- Run a program alone, to its end. -/
def run (handle : Handler I σ) :
    Program I ω ε α → σ → Run I ω σ (Except ε α)
  | .done value, store => ⟨[], .ok value, store⟩
  | .fail error, store => ⟨[], .error error, store⟩
  | .emit obs next, store =>
    let rest := next.run handle store
    ⟨.told obs :: rest.trace, rest.result, rest.final⟩
  | .call op next, store =>
    let answered := handle op store
    let rest := (next answered.1).run handle answered.2
    ⟨.called op answered.1 :: rest.trace, rest.result, rest.final⟩

/-- Run a program alone and stop it before its call number `limit`; the
result is `none` when it was stopped.  Observations cost nothing: a program is
stopped between two calls. -/
def runFor (handle : Handler I σ) :
    Nat → Program I ω ε α → σ → Run I ω σ (Option (Except ε α))
  | _, .done value, store => ⟨[], some (.ok value), store⟩
  | _, .fail error, store => ⟨[], some (.error error), store⟩
  | limit, .emit obs next, store =>
    let rest := next.runFor handle limit store
    ⟨.told obs :: rest.trace, rest.result, rest.final⟩
  | 0, .call _ _, store => ⟨[], none, store⟩
  | limit + 1, .call op next, store =>
    let answered := handle op store
    let rest := (next answered.1).runFor handle limit answered.2
    ⟨.called op answered.1 :: rest.trace, rest.result, rest.final⟩

end Program

end Graphorin.Lib
