set_option autoImplicit false

namespace SupervisorApi

inductive Poll (α : Type) where
  | pending
  | item (a : α)
  | ended
  deriving DecidableEq, Repr

inductive SizeHint where
  | exact (n : Nat)
  | atLeast (n : Nat)
  deriving DecidableEq, Repr

namespace SizeHint

def lower : SizeHint → Nat
  | .exact n | .atLeast n => n

def known? : SizeHint → Option Nat
  | .exact n => some n
  | .atLeast _ => none

end SizeHint

end SupervisorApi
