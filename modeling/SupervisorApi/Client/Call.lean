import SupervisorApi.Body.Basic
import SupervisorApi.Http.Message
import SupervisorApi.Http.Query
import SupervisorApi.Json.Basic
import SupervisorApi.Text.LowerCase
import SupervisorApi.Time.Duration

set_option autoImplicit false

namespace SupervisorApi

inductive ResponseKind where
  | none
  | json
  | text
  | stream
  deriving DecidableEq, Repr

namespace ResponseKind

def all : List ResponseKind :=
  [.none, .json, .text, .stream]

def name : ResponseKind → String
  | .none => "none"
  | .json => "json"
  | .text => "text"
  | .stream => "stream"

def ofName (s : String) : Option ResponseKind :=
  all.find? fun k => k.name = s

def accept : ResponseKind → String
  | .text => "text/plain, */*"
  | _ => "application/json, text/plain, */*"

-- JSON is expected where something is fetched, nothing elsewhere.
def standard (m : Method) : ResponseKind :=
  if m = Method.get then .json else .none

end ResponseKind

inductive CallTimeout where
  | standard
  | after (d : Duration)
  | disabled
  deriving DecidableEq, Repr

def CallTimeout.resolve (t : CallTimeout) (client : Option Duration) : Option Duration :=
  match t with
  | .standard => client
  | .after d => some d
  | .disabled => none

inductive Content where
  | empty
  | json (value : Json)
  | raw (data : Bytes)
  | upload (u : Upload)

structure Call where
  method : Method
  path : String
  kind : Option ResponseKind
  timeout : CallTimeout
  query : Query
  content : Content
  headers : Headers

namespace Call

def ofPath (method : Method) (path : String) : Call where
  method := method
  path := path
  kind := none
  timeout := .standard
  query := []
  content := .empty
  headers := []

def responseKind (c : Call) : ResponseKind :=
  c.kind.getD (.standard c.method)

inductive Setting where
  | response (kind : ResponseKind)
  | timeout (d : Duration)
  | noTimeout
  | query (a : Query.Addition)
  | json (value : Json)
  | raw (data : Bytes)
  | upload (u : Upload)
  | header (name : String) (value : Bytes)

def set (c : Call) : Setting → Call
  | .response kind => { c with kind := some kind }
  | .timeout d => { c with timeout := .after d }
  | .noTimeout => { c with timeout := .disabled }
  | .query a => { c with query := c.query.add a }
  | .json value => { c with content := .json value }
  | .raw data => { c with content := .raw data }
  | .upload u => { c with content := .upload u }
  | .header name value => { c with headers := c.headers ++ [⟨LowerCase.ofText name, value⟩] }

def ofSettings (method : Method) (path : String) (made : List Setting) : Call :=
  made.foldl set (.ofPath method path)

end Call

end SupervisorApi
