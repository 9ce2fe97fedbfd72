import SupervisorApi.Model.Decode
import SupervisorApi.Model.Encode

set_option autoImplicit false

namespace SupervisorApi

inductive WireError where
  | refused (e : DecodeError)
  | notAnObject (found : String)
  deriving DecidableEq, Repr

def WireError.message : WireError → String
  | .refused e => e.message
  | .notAnObject found => "expected a JSON object, got " ++ found

def Json.toWire : Json → Except WireError Members
  | .obj ms => .ok ms
  | j => .error (.notAnObject j.describe)

namespace Shape

def toWire (s : Shape) (v : s.Val) : Except WireError Members :=
  (s.encode v).toWire

def fromWire (s : Shape) (j : Json) : Except WireError s.Val :=
  match s.decode false j with
  | .ok v => .ok v
  | .error e => .error (.refused e)

def isStable (s : Shape) (v : s.Val) : Bool :=
  match s.fromWire (s.encode v) with
  | .ok w => s.same w v
  | .error _ => false

end Shape

namespace Field

variable {α : Type}

def decode (read : Json → Except DecodeError α) : Json → Except DecodeError (Field α)
  | .null => .ok .null
  | j => (read j).map .value

def encode (write : α → Json) : Field α → Json
  | .value a => write a
  | .null | .unset => .null

end Field

namespace Json

def nameText : Json → String
  | .str s => s
  | _ => "<unrepresentable>"

end Json

end SupervisorApi
