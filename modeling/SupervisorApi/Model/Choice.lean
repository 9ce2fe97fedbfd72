import SupervisorApi.Decode.Error
import SupervisorApi.Json.Basic

set_option autoImplicit false

namespace SupervisorApi

structure Choice where
  names : List String
  deriving DecidableEq, Repr

namespace Choice

abbrev Value (c : Choice) : Type := Fin c.names.length

def name (c : Choice) (v : c.Value) : String :=
  c.names[v]

def ofName (c : Choice) (s : String) : Option c.Value :=
  c.names.finIdxOf? s

def refusal (c : Choice) (s : String) : DecodeError :=
  .unknownVariant s c.names

def decodeName (c : Choice) (s : String) : Except DecodeError c.Value :=
  match c.ofName s with
  | some v => .ok v
  | none => .error (c.refusal s)

-- What may stand beside the name in the form of an object: null, and in a buffered part of a
-- value an empty object too.
def isUnit (buffered : Bool) : Json → Bool
  | .null => true
  | .obj [] => buffered
  | _ => false

def decode (c : Choice) (buffered : Bool) : Json → Except DecodeError c.Value
  | .str s => c.decodeName s
  | .obj [(s, u)] => do
    let v ← c.decodeName s
    if isUnit buffered u then .ok v else .error .mismatched
  | _ => .error .mismatched

def encode (c : Choice) (v : c.Value) : Json :=
  .str (c.name v)

end Choice

inductive Lenient (c : Choice) where
  | known (v : c.Value)
  | unknown (s : String) (other : c.ofName s = none)
  deriving DecidableEq

namespace Lenient

variable {c : Choice}

def parse (c : Choice) (s : String) : Lenient c :=
  match h : c.ofName s with
  | some v => .known v
  | none => .unknown s h

def isKnown : Lenient c → Bool
  | .known _ => true
  | .unknown _ _ => false

def unknown? : Lenient c → Option String
  | .known _ => none
  | .unknown s _ => some s

def name : Lenient c → String
  | .known v => c.name v
  | .unknown s _ => s

def decode (c : Choice) : Json → Except DecodeError (Lenient c)
  | .str s => .ok (parse c s)
  | _ => .error .mismatched

def encode (x : Lenient c) : Json :=
  .str x.name

def before : Lenient c → Lenient c → Bool
  | .known v, .known w => v < w
  | .known _, .unknown _ _ => true
  | .unknown _ _, .known _ => false
  | .unknown s _, .unknown t _ => s < t

end Lenient

end SupervisorApi
