set_option autoImplicit false

namespace SupervisorApi

inductive Field (α : Type) where
  | unset
  | null
  | value (a : α)
  deriving DecidableEq, Repr

namespace Field

variable {α β : Type}

def nullable : Option α → Field α
  | some a => .value a
  | none => .null

def isUnset : Field α → Bool
  | .unset => true
  | _ => false

def isNull : Field α → Bool
  | .null => true
  | _ => false

def isValue : Field α → Bool
  | .value _ => true
  | _ => false

def toOption : Field α → Option α
  | .value a => some a
  | _ => none

def map (f : α → β) : Field α → Field β
  | .unset => .unset
  | .null => .null
  | .value a => .value (f a)

@[simp] theorem map_id (x : Field α) : x.map id = x := by
  cases x <;> rfl

end Field

end SupervisorApi
