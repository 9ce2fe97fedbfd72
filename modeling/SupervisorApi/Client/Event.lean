import SupervisorApi.Client.Call
import SupervisorApi.Error.Kind

set_option autoImplicit false

namespace SupervisorApi

inductive Event where
  | rootsUnreadable
  | dispatching (timeout : Option Duration)
  | refused (status : Nat) (kind : ErrorKind)
  | handingOff (contentLength : Option Nat)
  deriving DecidableEq, Repr

structure Span where
  method : Method
  path : String
  kind : ResponseKind

def Call.span (c : Call) : Span :=
  ⟨c.method, c.path, c.responseKind⟩

namespace Span

def text (s : Span) : String :=
  "supervisor.request\x7bhttp.method=" ++ s.method.name ++ " url.path=" ++ s.path
    ++ " response.kind=\"" ++ s.kind.name ++ "\"\x7d"

end Span

namespace Event

def source : Event → String
  | .rootsUnreadable => "hasupervisor_client::transport::connector"
  | _ => "hasupervisor_client::client"

def message : Event → String
  | .rootsUnreadable => "errors loading native certs"
  | .dispatching t => "dispatching timeout=" ++ Duration.optionText t
  | .refused status kind =>
    "supervisor returned an error status=" ++ toString status ++ " kind=" ++ kind.name
  | .handingOff n =>
    "handing off response stream content_length="
      ++ match n with
        | some n => "Some(" ++ toString n ++ ")"
        | none => "None"

def line (s : Span) (e : Event) : String :=
  "DEBUG " ++ s.text ++ ": " ++ e.source ++ ": " ++ e.message

end Event

end SupervisorApi
