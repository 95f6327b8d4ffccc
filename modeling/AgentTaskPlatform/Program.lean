import Mathlib.Logic.Basic

/-!
Programs that act on a shared state one atomic operation at a time. A program
is the tree of the operations it may issue; every answer selects a branch. The
tree fixes no meaning for an operation, so it can be read under any scheduler
and any shared state.
-/

namespace AgentTaskPlatform.Interleaving

structure Interface where
  Op : Type
  Answer : Op → Type

inductive Program (I : Interface) (α : Type) : Type where
  | ret (value : α)
  | act (op : I.Op) (next : I.Answer op → Program I α)

variable {I : Interface} {ε α β : Type}

namespace Program

def bind : Program I α → (α → Program I β) → Program I β
  | .ret value, rest => rest value
  | .act op next, rest => .act op fun answer => (next answer).bind rest

def finished : Program I α → Bool
  | .ret _ => true
  | .act _ _ => false

end Program

def Fallible (I : Interface) (ε α : Type) : Type := Program I (Except ε α)

namespace Fallible

def pure (value : α) : Fallible I ε α := Program.ret (.ok value)

def raise (error : ε) : Fallible I ε α := Program.ret (.error error)

def continueWith (rest : α → Fallible I ε β) : Except ε α → Program I (Except ε β)
  | .ok value => rest value
  | .error error => .ret (.error error)

def bind (program : Fallible I ε α) (rest : α → Fallible I ε β) : Fallible I ε β :=
  Program.bind program (continueWith rest)

instance : Monad (Fallible I ε) where
  pure := Fallible.pure
  bind := Fallible.bind

def call (op : I.Op) : Fallible I ε (I.Answer op) :=
  Program.act op fun answer => .ret (.ok answer)

def attempt (program : Fallible I ε α) : Fallible I ε (Except ε α) :=
  Program.bind program fun outcome => .ret (.ok outcome)

def ofExcept : Except ε α → Fallible I ε α
  | .ok value => pure value
  | .error error => raise error

def finallyDo (program : Fallible I ε α) (cleanup : Fallible I ε Unit) :
    Fallible I ε α :=
  bind (attempt program) fun outcome => bind cleanup fun _ => ofExcept outcome

end Fallible

end AgentTaskPlatform.Interleaving
