import SupervisorApi.Envelope.Basic
import SupervisorApi.Error.Basic
import SupervisorApi.Error.Template

set_option autoImplicit false

namespace SupervisorApi

namespace Members

def putAll (new object : Members) : Members :=
  new.foldl (fun object (k, v) => put k v object) object

end Members

namespace Envelope

def classify (status : Nat) (e : Envelope) : ErrorKind × Option Members :=
  let base := ErrorKind.ofStatus status
  match e.errorKey with
  | some key => ((ErrorKind.ofErrorKey key).getD base, e.extraFields)
  | none =>
    if base = .badRequest then
      match e.message.bind matchMessage with
      | some (kind, fields) => (kind, some (Members.putAll fields (e.extraFields.getD [])))
      | none => (base, e.extraFields)
    else (base, e.extraFields)

def failure (status : Nat) (e : Envelope) : ApiError :=
  let kind := (e.classify status).1
  let extra := (e.classify status).2
  .status kind status (e.message.orElse fun _ => extra.bind kind.renderMessage) e.jobId extra

end Envelope

end SupervisorApi
