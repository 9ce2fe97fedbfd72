import SupervisorApi.Client.Event
import SupervisorApi.Client.Response
import SupervisorApi.Envelope.Failure
import SupervisorApi.Envelope.Reader

set_option autoImplicit false

namespace SupervisorApi

namespace Incoming

def occursIn (part : List Char) : List Char → Bool
  | [] => part.isEmpty
  | c :: rest => part.isPrefixOf (c :: rest) || occursIn part rest

def jsonType : String := "application/json"

def contentType (r : Incoming) : Option Bytes :=
  r.headers.get? "content-type"

def isJson (r : Incoming) : Bool :=
  (r.contentType.bind Header.visible?).any (occursIn jsonType.toList)

-- A number as it stands in a header: a plus sign may be in front.
def lengthOf? (value : Bytes) : Option Nat := do
  let text ← Header.visible? value
  let digits := match text with
    | '+' :: rest => rest
    | _ => text
  let n ← if digits = [] then none else (digits.mapM Digits.value?).map Digits.number
  if n < UInt64.size then some n else none

def contentLength (r : Incoming) : Option Nat :=
  (r.headers.get? "content-length").bind lengthOf?

def refusal (r : Incoming) (body : Bytes) : ApiError :=
  let plain := ApiError.ofKind (.ofStatus r.status) r.status
  if r.isJson then
    match Envelope.parse body with
    | .ok e => e.failure r.status
    | .error _ => plain
  else plain

def notJson (r : Incoming) : ApiError :=
  .response ("expected application/json, got "
    ++ match r.contentType with
      | some v => "Some(" ++ Header.quote v ++ ")"
      | none => "None")

def ofEnvelope (r : Incoming) (body : Bytes) : Except ApiError Response :=
  match Envelope.parse body with
  | .ok e =>
    if e.isOk then .ok ⟨r.status, e.jobId, .json (e.data.getD .null)⟩
    else .error (e.failure r.status)
  | .error _ => .error (.response "invalid response envelope")

def ofText (r : Incoming) (body : Bytes) : Except ApiError Response :=
  match Utf8.decode body with
  | .ok s => .ok ⟨r.status, none, .text s⟩
  | .error fault => .error (.response ("response is not UTF-8: " ++ fault.message))

def whole {α : Type} (r : Incoming) (f : Bytes → Except ApiError α) :
    Awaited (Except ApiError α) :=
  r.body.read.map fun body => body.bind f

def isError (r : Incoming) : Bool :=
  400 ≤ r.status

def fail (r : Incoming) : List Event × Awaited (Except ApiError Response) :=
  match r.body.read with
  | .now (.ok body) =>
    let e := r.refusal body
    ([.refused r.status e.kind], .now (.error e))
  | .now (.error e) => ([], .now (.error e))
  | .never => ([], .never)

def receive (r : Incoming) (kind : ResponseKind) : List Event × Awaited (Except ApiError Response) :=
  if r.isError then r.fail
  else
    match kind with
    | .none => ([], r.whole fun _ => .ok ⟨r.status, none, .empty⟩)
    | .json => ([], if r.isJson then r.whole r.ofEnvelope else .now (.error r.notJson))
    | .text => ([], r.whole r.ofText)
    | .stream =>
      ([.handingOff r.contentLength],
        .now (.ok ⟨r.status, none, .stream (.ofBody r.body r.contentLength)⟩))

end Incoming

end SupervisorApi
