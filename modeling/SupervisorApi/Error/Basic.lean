import SupervisorApi.Error.Kind
import SupervisorApi.Json.Basic
import SupervisorApi.Text.Quoted

set_option autoImplicit false

namespace SupervisorApi

inductive ApiError where
  | status (kind : ErrorKind) (status : Nat) (message jobId : Option String)
      (extraFields : Option Members)
  | connection (message : String)
  | timeout (message : String)
  | response (message : String)
  | encode (message : String)
  | invalidPath (message : String)
  | closed
  deriving Inhabited

namespace ApiError

def ofKind (kind : ErrorKind) (status : Nat) : ApiError :=
  .status kind status none none none

def kind : ApiError → ErrorKind
  | .status k _ _ _ _ => k
  | .connection _ | .closed => .connection
  | .timeout _ => .timeout
  | .response _ => .response
  | .encode _ | .invalidPath _ => .generic

def is (e : ApiError) (k : ErrorKind) : Bool :=
  e.kind.isA k

def message : ApiError → Option String
  | .status _ _ m _ _ => m
  | .connection m | .timeout m | .response m | .encode m | .invalidPath m => some m
  | .closed => none

def jobId : ApiError → Option String
  | .status _ _ _ j _ => j
  | _ => none

def extraFields : ApiError → Option Members
  | .status _ _ _ _ x => x
  | _ => none

def status? : ApiError → Option Nat
  | .status _ s _ _ _ => some s
  | _ => none

def display : ApiError → String
  | .status _ _ (some m) _ _ => m
  | .status k s none _ _ => k.name ++ " error (HTTP " ++ toString s ++ ")"
  | .connection m => "connection error: " ++ m
  | .timeout m => "timeout: " ++ m
  | .response m => "unusable response: " ++ m
  | .encode m => "encode error: " ++ m
  | .invalidPath m => "invalid path: " ++ m
  | .closed => "client session is closed"

end ApiError

-- An error of the transport as it is told: its own text, and those of the errors behind it.
structure Cause where
  text : String
  sources : List String
  deriving DecidableEq, Repr

def Cause.chain (c : Cause) : String :=
  c.sources.foldl (fun told source => told ++ ": " ++ source) c.text

def ApiError.requestFailed (c : Cause) : ApiError :=
  .connection ("request failed: " ++ c.chain)

inductive BuildError where
  | invalidHost (host reason : String)
  | missingEnv (name : String)
  | invalidHeader (name : String)
  | tls (reason : String)
  deriving DecidableEq, Repr

namespace BuildError

def message : BuildError → String
  | .invalidHost host reason => "invalid api host " ++ Quoted.quote host ++ ": " ++ reason
  | .missingEnv name => "environment variable " ++ name ++ " is not set"
  | .invalidHeader name => "invalid header value for " ++ name
  | .tls reason => "tls configuration error: " ++ reason

end BuildError

def ApiError.ofBuild (e : BuildError) : ApiError :=
  .connection e.message

end SupervisorApi
