import SupervisorApi.Error.Basic
import SupervisorApi.Transport.Settings

set_option autoImplicit false

namespace SupervisorApi

inductive Session where
  | pending
  | owned (t : Transport)
  | adopted (t : Transport)
  | closed
  deriving DecidableEq, Repr

namespace Session

def start : Option Transport → Session
  | some t => .adopted t
  | none => .pending

def isOwn : Session → Bool
  | .pending | .owned _ => true
  | .adopted _ | .closed => false

def isClosed (s : Session) : Bool :=
  s = .closed

def close : Session → Session
  | .pending | .owned _ => .closed
  | .adopted t => .adopted t
  | .closed => .closed

def describe : Session → String
  | .pending => "Pending"
  | .owned t => "Owned(" ++ t.describe ++ ")"
  | .adopted t => "Shared(" ++ t.describe ++ ")"
  | .closed => "Closed"

structure Taken where
  transport : Transport
  session : Session
  created : Bool

def take : Session → Except ApiError Taken
  | .pending => .ok ⟨.standard, .owned .standard, true⟩
  | .owned t => .ok ⟨t, .owned t, false⟩
  | .adopted t => .ok ⟨t, .adopted t, false⟩
  | .closed => .error .closed

end Session

end SupervisorApi
