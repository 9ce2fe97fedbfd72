import SupervisorApi.Body.Incoming
import SupervisorApi.Http.Header

set_option autoImplicit false

namespace SupervisorApi

structure Method where
  name : String
  deriving DecidableEq, Repr

namespace Method

def get : Method := ⟨"GET"⟩
def post : Method := ⟨"POST"⟩
def put : Method := ⟨"PUT"⟩
def delete : Method := ⟨"DELETE"⟩
def head : Method := ⟨"HEAD"⟩

-- Methods that send a body only where its length is known.
def isBodiless (m : Method) : Bool :=
  m = .get || m = .head

-- Whether the answer to a request is its head alone.
def isAnsweredByHead (m : Method) (status : Nat) : Bool :=
  m = .head || status = 101 || status = 204 || status = 304

end Method

inductive Framing where
  | noBody
  | length (n : Nat)
  | chunked
  deriving DecidableEq, Repr

structure Request where
  method : Method
  authority : String
  target : String
  headers : Headers
  framing : Framing
  body : Bytes
  deriving DecidableEq, Repr

structure Incoming where
  status : Nat
  headers : Headers
  body : IncomingBody

inductive Reaction where
  | dropped (cause : Cause)
  | silent
  | answer (incoming : Incoming)
  deriving Inhabited

end SupervisorApi
