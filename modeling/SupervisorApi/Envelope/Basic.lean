import SupervisorApi.Json.Basic

set_option autoImplicit false

namespace SupervisorApi

inductive Outcome where
  | ok
  | error
  deriving DecidableEq, Repr

def Outcome.name : Outcome → String
  | .ok => "ok"
  | .error => "error"

structure Envelope where
  result : Outcome
  message : Option String
  jobId : Option String
  errorKey : Option String
  extraFields : Option Members
  data : Option Json

namespace Envelope

def ok (data : Option Json) : Envelope :=
  ⟨.ok, none, none, none, none, data⟩

def error (message : String) : Envelope :=
  ⟨.error, some message, none, none, none, none⟩

def isOk (e : Envelope) : Bool :=
  e.result = .ok

def optional (name : String) : Option Json → List (String × Json)
  | some v => [(name, v)]
  | none => []

def members (e : Envelope) : Members :=
  Members.ofList
    ([("result", .str e.result.name)]
      ++ optional "message" (e.message.map .str)
      ++ optional "job_id" (e.jobId.map .str)
      ++ optional "error_key" (e.errorKey.map .str)
      ++ optional "extra_fields" (e.extraFields.map .obj)
      ++ optional "data" e.data)

def toJson (e : Envelope) : Json :=
  .obj e.members

def sameOption (a b : Option Json) : Bool :=
  match a, b with
  | some a, some b => a.same b
  | none, none => true
  | _, _ => false

def same (a b : Envelope) : Bool :=
  a.result = b.result && a.message == b.message && a.jobId == b.jobId && a.errorKey == b.errorKey
    && sameOption (a.extraFields.map .obj) (b.extraFields.map .obj) && sameOption a.data b.data

end Envelope

end SupervisorApi
