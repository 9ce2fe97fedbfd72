import SupervisorApi.Client.Session
import SupervisorApi.Http.Header
import SupervisorApi.Http.Uri

set_option autoImplicit false

namespace SupervisorApi

structure Client where
  baseUrl : String
  authorization : Bytes
  userAgent : Bytes
  timeout : Option Duration

namespace Host

def withoutSlashes (s : String) : String :=
  String.ofList (s.toList.reverse.dropWhile (· = '/')).reverse

-- A query would swallow the paths of the calls.
def normalize (host : String) : Except BuildError String :=
  match Uri.parse host with
  | .error _ => .error (.invalidHost host "not a URI")
  | .ok uri =>
    if uri.schemeName ≠ some "http" ∧ uri.schemeName ≠ some "https" then
      .error (.invalidHost host "scheme must be http or https")
    else if uri.query.isSome then .error (.invalidHost host "must not contain a query")
    else .ok (withoutSlashes host)

end Host

structure ClientSettings where
  host : String
  token : String
  userAgent : String
  timeout : Option Duration
  transport : Option Transport

namespace ClientSettings

def standard (host token : String) : ClientSettings where
  host := host
  token := token
  userAgent := "hasupervisor-rs/0.1.0"
  timeout := some (.ofSeconds 10)
  transport := none

def setting (environment : String → Option String) (name : String) : Except BuildError String :=
  match environment name with
  | some v => if v = "" then .error (.missingEnv name) else .ok v
  | none => .error (.missingEnv name)

def ofEnvironment (environment : String → Option String) : Except BuildError ClientSettings := do
  let host ← setting environment "SUPERVISOR_API_URL"
  let token ← setting environment "SUPERVISOR_TOKEN"
  return standard host token

def headerValue (name text : String) : Except BuildError Bytes :=
  match Header.value? text with
  | some v => .ok v
  | none => .error (.invalidHeader name)

def build (s : ClientSettings) : Except BuildError (Client × Session) := do
  let baseUrl ← Host.normalize s.host
  let authorization ← headerValue "authorization" ("Bearer " ++ s.token)
  let userAgent ← headerValue "user-agent" s.userAgent
  return (⟨baseUrl, authorization, userAgent, s.timeout⟩, .start s.transport)

def describe (s : ClientSettings) : String :=
  "SupervisorClientBuilder \x7b api_host: " ++ Quoted.quote s.host
    ++ ", token: \"<redacted>\", request_timeout: " ++ Duration.optionText s.timeout
    ++ ", session: " ++ toString s.transport.isSome
    ++ ", user_agent: " ++ Quoted.quote s.userAgent ++ " \x7d"

end ClientSettings

def Client.describe (c : Client) (s : Session) : String :=
  "SupervisorClient \x7b api: ApiClient \x7b base_url: " ++ Quoted.quote c.baseUrl
    ++ ", authorization: " ++ Header.describe true c.authorization
    ++ ", user_agent: " ++ Header.describe false c.userAgent
    ++ ", request_timeout: " ++ Duration.optionText c.timeout
    ++ ", session: Mutex \x7b data: " ++ s.describe ++ ", poisoned: false, .. \x7d \x7d \x7d"

end SupervisorApi
