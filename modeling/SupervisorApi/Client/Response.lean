import SupervisorApi.Body.Incoming
import SupervisorApi.Json.Writer
import SupervisorApi.Model.Wire

set_option autoImplicit false

namespace SupervisorApi

inductive Payload where
  | empty
  | json (value : Json)
  | text (s : String)
  | stream (s : ByteStream)

def Payload.name : Payload → String
  | .empty => "empty"
  | .json _ => "JSON"
  | .text _ => "text"
  | .stream _ => "stream"

structure Response where
  status : Nat
  jobId : Option String
  payload : Payload

namespace Response

def unexpected (wanted : String) (p : Payload) : ApiError :=
  .response ("expected " ++ wanted ++ " payload, got " ++ p.name)

def json (r : Response) : Except ApiError Json :=
  match r.payload with
  | .json v => .ok v
  | p => .error (unexpected "JSON" p)

def text (r : Response) : Except ApiError String :=
  match r.payload with
  | .text s => .ok s
  | p => .error (unexpected "text" p)

def stream (r : Response) : Except ApiError ByteStream :=
  match r.payload with
  | .stream s => .ok s
  | p => .error (unexpected "stream" p)

def undecodable (e : WireError) : ApiError :=
  .response ("failed to decode response data: " ++ e.message)

def decode (s : Shape) (r : Response) : Except ApiError s.Val := do
  (s.fromWire (← r.json)).mapError undecodable

def bytes (r : Response) : Awaited (Except ApiError Bytes) :=
  match r.payload with
  | .empty => .now (.ok [])
  | .json v => .now (.ok v.bytes)
  | .text s => .now (.ok (Utf8.encode s))
  | .stream s => s.collect

end Response

end SupervisorApi
