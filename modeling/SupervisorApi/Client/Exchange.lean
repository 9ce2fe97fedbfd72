import SupervisorApi.Client.Basic
import SupervisorApi.Client.Receive
import SupervisorApi.Http.Path
import SupervisorApi.Http.Uri

set_option autoImplicit false

namespace SupervisorApi

inductive Roots where
  | system
  | authority
  | empty
  | missing
  deriving DecidableEq, Repr

inductive Certificate where
  | selfSigned
  | trusted
  | expired
  | otherName
  deriving DecidableEq, Repr

inductive Link where
  | nobody
  | plain
  | tls (certificate : Certificate)
  deriving DecidableEq, Repr

structure Surroundings where
  roots : Roots
  link : String → Link
  unreached : Transport → String → Bool → Cause
  stopped : ApiError → Cause

namespace Surroundings

def accepts (around : Surroundings) : Transport.Trust → Certificate → Bool
  | .anything, _ => true
  | .verified, c => around.roots = .authority && c = .trusted

-- Whether a transport gets through to a server. Both sides have to speak TLS, or neither.
def reaches (around : Surroundings) (t : Transport) (address : String) (secure : Bool) : Bool :=
  match around.link address, secure with
  | .plain, false => true
  | .tls c, true => around.accepts t.trust c
  | _, _ => false

def reports (around : Surroundings) (t : Session.Taken) : List Event :=
  if t.created && around.roots = .missing then [.rootsUnreadable] else []

end Surroundings

structure Outgoing where
  method : Method
  secure : Bool
  authority : String
  target : String
  headers : Headers
  body : RequestBody

namespace Outgoing

def framing (o : Outgoing) : Framing :=
  if o.body.isEnd then .noBody
  else
    match o.body.sizeHint with
    | .exact n => .length n
    | .atLeast _ => if o.method.isBodiless then .noBody else .chunked

def sentBody (o : Outgoing) : RequestBody :=
  if o.framing = .noBody then .empty else o.body

def arrive (o : Outgoing) : Except ApiError Request :=
  o.sentBody.bytes?.map fun body =>
    ⟨o.method, o.authority, o.target, o.headers, o.framing, body⟩

end Outgoing

namespace Content

def mediaType : Content → Option String
  | .empty => none
  | .json _ => some "application/json"
  | .raw _ => some "application/octet-stream"
  | .upload u => some u.mediaType

def body : Content → RequestBody
  | .empty => .empty
  | .json v => .ofBytes v.bytes
  | .raw data => .ofBytes data
  | .upload u => .ofUpload u

end Content

structure Exchange (α : Type) where
  session : Session
  request : Option Request
  events : List Event
  result : Awaited (Except ApiError α)

def Exchange.andThen {α β : Type} (x : Exchange α) (f : α → Awaited (Except ApiError β)) :
    Exchange β where
  session := x.session
  request := x.request
  events := x.events
  result := x.result.bind fun
    | .ok a => f a
    | .error e => .now (.error e)

def Exchange.refuse {α : Type} (s : Session) (e : ApiError) : Exchange α :=
  ⟨s, none, [], .now (.error e)⟩

def deadline {α : Type} (timeout : Option Duration) :
    Awaited (Except ApiError α) → Awaited (Except ApiError α)
  | .now r => .now r
  | .never =>
    match timeout with
    | some d => .now (.error (.timeout ("no response within " ++ d.text)))
    | none => .never

namespace Client

def relative (path : String) : String :=
  String.ofList (path.toList.dropWhile (· = '/'))

def url (c : Client) (call : Call) : String :=
  c.baseUrl ++ "/" ++ relative call.path
    ++ (if call.query.isEmpty then "" else "?" ++ call.query.encode)

def defaults (c : Client) (call : Call) : Headers :=
  [⟨"authorization", c.authorization⟩, .ofText "accept" call.responseKind.accept,
      ⟨"user-agent", c.userAgent⟩]
    ++ (call.content.mediaType.map (Header.ofText "content-type")).toList

def prepare (c : Client) (call : Call) : Except ApiError Outgoing :=
  match Uri.parse (c.url call) with
  | .ok uri =>
    .ok ⟨call.method, uri.isSecure, uri.authority, uri.target,
      (c.defaults call).overlay call.headers, call.content.body⟩
  | .error fault => .error (.invalidPath (call.path ++ ": " ++ fault.message))

-- What gets through of a request. An upload that fails on its way leaves nothing to be answered.
def attempt (around : Surroundings) (t : Transport) (o : Outgoing) : Except Cause Request :=
  let address := Uri.address o.authority
  if around.reaches t address o.secure then o.arrive.mapError around.stopped
  else .error (around.unreached t address o.secure)

def send (kind : ResponseKind) (reaction : Reaction) :
    Except Cause Request → Option Request × List Event × Awaited (Except ApiError Response)
  | .error cause => (none, [], .now (.error (.requestFailed cause)))
  | .ok request =>
    match reaction with
    | .dropped cause => (some request, [], .now (.error (.requestFailed cause)))
    | .silent => (some request, [], .never)
    | .answer incoming => (some request, incoming.receive kind)

end Client

-- A call begins: its path is looked at before the session.
def Call.begin (call : Call) (s : Session) : Except ApiError Session.Taken :=
  match Path.guard call.path with
  | .error e => .error e
  | .ok () => s.take

namespace Client

def finish (c : Client) (around : Surroundings) (taken : Session.Taken) (call : Call)
    (reaction : Reaction) : Exchange Response :=
  match c.prepare call with
  | .error e => ⟨taken.session, none, around.reports taken, .now (.error e)⟩
  | .ok outgoing =>
    let timeout := call.timeout.resolve c.timeout
    let sent := send call.responseKind reaction (attempt around taken.transport outgoing)
    { session := taken.session
      request := sent.1
      events := around.reports taken ++ [.dispatching timeout] ++ sent.2.1
      result := deadline timeout sent.2.2 }

def call (c : Client) (around : Surroundings) (s : Session) (call : Call) (reaction : Reaction) :
    Exchange Response :=
  match call.begin s with
  | .error e => .refuse s e
  | .ok taken => c.finish around taken call reaction

end Client

end SupervisorApi
