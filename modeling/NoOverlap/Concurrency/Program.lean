import Mathlib.Logic.Function.Basic

/-!
# Programs over atomic operations

A program is either finished, with a value or an error, or it waits on one
atomic operation and says how it continues for every response that operation
can give.  The operation may itself fail, so the continuation receives an
`Except`.  Nothing here fixes what an operation does: that is the business of
the machine a program runs on.

`bind` sequences two programs and `tryCatch` gives a program a handler.  Both
recurse through the continuations, so a `do` block built from them reduces, and
a concrete schedule of a concrete program can be evaluated.
-/

namespace Concurrency

/-- A program whose operations are drawn from `Op`, an operation `o` answering
in `Resp o` or failing with an `ε`. -/
inductive Prog {Op : Type} (Resp : Op → Type) (ε α : Type) where
  | done (r : Except ε α)
  | call (o : Op) (k : Except ε (Resp o) → Prog Resp ε α)

namespace Prog

variable {Op : Type} {Resp : Op → Type} {ε α β γ : Type}

def bind : Prog Resp ε α → (α → Prog Resp ε β) → Prog Resp ε β
  | done (.ok a), f => f a
  | done (.error e), _ => done (.error e)
  | call o k, f => call o fun r => (k r).bind f

/-- Run `h` on the error `p` ends with, if it ends with one. -/
def handle : Prog Resp ε α → (ε → Prog Resp ε α) → Prog Resp ε α
  | done (.ok a), _ => done (.ok a)
  | done (.error e), h => h e
  | call o k, h => call o fun r => (k r).handle h

/-- One operation, its failure passed on. -/
def op (o : Op) : Prog Resp ε (Resp o) := call o done

instance : Monad (Prog Resp ε) where
  pure a := done (.ok a)
  bind := bind

instance : MonadExceptOf ε (Prog Resp ε) where
  throw e := done (.error e)
  tryCatch := handle

/-- An operation, and nothing after it. -/
theorem op_eq_bind (o : Op) : (op o : Prog Resp ε (Resp o)) = op o >>= pure := by
  change call o done = call o fun r => (done r).bind pure
  congr 1
  funext r
  cases r <;> rfl

theorem bind_assoc (p : Prog Resp ε α) (f : α → Prog Resp ε β) (g : β → Prog Resp ε γ) :
    p >>= f >>= g = p >>= fun a => f a >>= g := by
  induction p with
  | done r =>
    cases r with
    | ok a => rfl
    | error e => rfl
  | call o k ih => exact congrArg (call o) (funext ih)

end Prog

end Concurrency
