import SupervisorApi.Http.Message

set_option autoImplicit false

namespace SupervisorApi

inductive ReplyFraming where
  | length
  | chunked
  | trailers
  | close
  deriving DecidableEq, Repr

inductive Fault where
  | drop
  | silentHead
  | silentBody
  | truncate
  deriving DecidableEq, Repr

structure Reply where
  status : Nat
  headers : Headers
  body : Bytes
  framing : ReplyFraming
  fault : Option Fault
  cause : Cause

namespace Reply

def standard : Reply where
  status := 200
  headers := [.ofText "content-type" "application/json"]
  body := Utf8.encode "\x7b\"result\":\"ok\",\"data\":\x7b\x7d\x7d"
  framing := .length
  fault := none
  cause := ⟨"connection closed before message completed", []⟩

def hasNoBody (r : Reply) : Bool :=
  r.status = 204 || r.status = 304

-- The length that the head announces: of a body that will not be complete, more than there is.
def announced (r : Reply) : Nat :=
  match r.fault with
  | some .silentBody | some .truncate => r.body.length + 10
  | _ => r.body.length

def lengthHeader (r : Reply) : Headers :=
  if r.framing = .length && !r.hasNoBody then
    [.ofText "content-length" (toString r.announced)]
  else []

def head (r : Reply) : Headers :=
  r.headers.map (fun h => ⟨h.name, Header.trim h.value⟩) ++ r.lengthHeader

def ending (r : Reply) : BodyEnd :=
  match r.fault, r.framing with
  | some .silentBody, _ => .silent
  | some .truncate, .close => .complete
  | some .truncate, _ => .broken r.cause.text
  | _, _ => .complete

def incoming (r : Reply) (m : Method) : Incoming where
  status := r.status
  headers := r.head
  body :=
    if m.isAnsweredByHead r.status then ⟨[], .complete⟩
    else ⟨.data r.body :: (if r.framing = .trailers then [.trailers] else []), r.ending⟩

-- Interim answers are not the answer, and a status has three digits.
def isFinal (status : Nat) : Bool :=
  status = 101 || (200 ≤ status && status ≤ 999)

def isReadable (r : Reply) : Bool :=
  isFinal r.status && r.head.all fun h => h.value.all Header.isValueByte

def reaction (r : Reply) (m : Method) : Reaction :=
  match r.fault with
  | some .drop => .dropped r.cause
  | some .silentHead => .silent
  | _ => if r.isReadable then .answer (r.incoming m) else .dropped r.cause

end Reply

end SupervisorApi
