import SupervisorApi.Model.Shape

set_option autoImplicit false

namespace SupervisorApi

namespace Slots

abbrev Row := String × Presence × Shape

def must (name : String) (s : Shape) : Row := (name, .required, s)
def may (name : String) (s : Shape) : Row := (name, .optional, s)
def sparse (name : String) (s : Shape) : Row := (name, .omitted, s)
def field (name : String) (s : Shape) : Row := (name, .field, s)

def ofList : List Row → Slots
  | [] => .nil
  | (n, p, s) :: rest => .cons n p s (ofList rest)

end Slots

def Shape.plain (rows : List Slots.Row) : Shape :=
  .record (.ofList rows) .nil

end SupervisorApi
