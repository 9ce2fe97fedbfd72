set_option autoImplicit false

namespace SupervisorApi

inductive Awaited (α : Type) where
  | now (a : α)
  | never
  deriving DecidableEq, Repr

namespace Awaited

variable {α β : Type}

def map (f : α → β) : Awaited α → Awaited β
  | .now a => .now (f a)
  | .never => .never

def bind (x : Awaited α) (f : α → Awaited β) : Awaited β :=
  match x with
  | .now a => f a
  | .never => .never

end Awaited

end SupervisorApi
