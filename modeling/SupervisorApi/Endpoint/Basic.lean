import SupervisorApi.Client.Exchange
import SupervisorApi.Model.Catalog

set_option autoImplicit false

namespace SupervisorApi

inductive Parameter where
  | addon
  | backup
  | mount
  | interface
  | repository
  | check
  | uuid
  | job
  | vlan
  deriving DecidableEq, Repr

namespace Parameter

abbrev Val : Parameter → Type
  | .addon | .backup | .mount | .interface | .repository => String
  | .check => Lenient Resolution.checkType
  | .uuid | .job => Uuid
  | .vlan => UInt16

def text : (p : Parameter) → p.Val → String
  | .addon, s | .backup, s | .mount, s | .interface, s | .repository, s => s
  | .check, x => x.name
  | .uuid, u | .job, u => u.render
  | .vlan, n => toString n.toNat

end Parameter

abbrev Arguments := (p : Parameter) → p.Val

namespace Arguments

def blank : Arguments
  | .addon | .backup | .mount | .interface | .repository => ""
  | .check => Lenient.parse _ ""
  | .uuid | .job => Uuid.zero
  | .vlan => 0

def ofBackup (slug : String) : Arguments
  | .backup => slug
  | p => blank p

end Arguments

inductive Segment where
  | fixed (s : String)
  | given (p : Parameter)

instance : Coe String Segment := ⟨.fixed⟩

def Segment.text (arguments : Arguments) : Segment → String
  | .fixed s => s
  | .given p => p.text (arguments p)

structure UploadOptions where
  locations : SortedSet (Option String)
  filename : Option String

inductive Sends where
  | nothing
  | model (s : Shape)
  | optional (s : Shape)
  -- Settings to be changed. There has to be at least one.
  | changes (s : Shape)
  | optionalChanges (s : Shape)
  | job (s : Shape) (background : s.Val → Field Bool)
  | optionalJob (s : Shape) (background : s.Val → Field Bool)
  | named (s : Shape) (member : String) (p : Parameter)
  | object
  | bytes
  | file
  | source

namespace Sends

def Val : Sends → Type
  | .nothing => Unit
  | .model s | .changes s | .job s _ | .named s _ _ => s.Val
  | .optional s | .optionalChanges s | .optionalJob s _ => Option s.Val
  | .object => Members
  | .bytes => Bytes
  | .file => Upload × Option UploadOptions
  | .source => Field String

def members (s : Shape) (v : s.Val) : Except ApiError Members :=
  (s.toWire v).mapError fun e => .encode e.message

def changed (s : Shape) (v : s.Val) : Except ApiError Members := do
  let ms ← members s v
  if ms.isEmpty then .error (.encode "At least one field must have a value") else .ok ms

def withObject (c : Call) (ms : Members) : Call :=
  { c with content := .json (.obj ms) }

-- Work that is waited for has no deadline.
def untilDone (background : Option (Field Bool)) (c : Call) : Call :=
  if background = some (.value true) then c else { c with timeout := .disabled }

def uploadCall (u : Upload) (options : Option UploadOptions) (c : Call) : Call :=
  match options with
  | none => { c with content := .upload u }
  | some o =>
    { c with
      query := c.query ++ Query.all "location" (o.locations.items.map Location.queryValue)
      content := .upload { u with filename := o.filename.getD u.filename } }

def sourceQuery : Field String → Query
  | .unset => []
  | .null => [("location", localLocation)]
  | .value name => [("location", name)]

def apply (arguments : Arguments) (c : Call) : (x : Sends) → x.Val → Except ApiError Call
  | .nothing, () => .ok c
  | .model s, v => (members s v).map (withObject c)
  | .optional _, none => .ok c
  | .optional s, some v => (members s v).map (withObject c)
  | .changes s, v => (changed s v).map (withObject c)
  | .optionalChanges _, none => .ok c
  | .optionalChanges s, some v => (changed s v).map (withObject c)
  | .job s background, v => (members s v).map (withObject (untilDone (some (background v)) c))
  | .optionalJob _ _, none => .ok (untilDone none c)
  | .optionalJob s background, some v =>
    (members s v).map (withObject (untilDone (some (background v)) c))
  | .named s member p, v =>
    (members s v).map fun ms => withObject c (Members.put member (.str (p.text (arguments p))) ms)
  | .object, ms => .ok (withObject c ms)
  | .bytes, data => .ok { c with content := .raw data }
  | .file, (u, options) => .ok (uploadCall u options c)
  | .source, location => .ok { c with query := c.query ++ sourceQuery location }

end Sends

inductive Holds where
  | nothing
  | model (s : Shape)
  | part (s t : Shape) (f : s.Val → t.Val)
  | object
  | text
  | stream

namespace Holds

def Val : Holds → Type
  | .nothing => Unit
  | .model s => s.Val
  | .part _ t _ => t.Val
  | .object => Members
  | .text => String
  | .stream => ByteStream

def objectOf : Json → Except ApiError Members
  | .obj ms => .ok ms
  | other => .error (.response ("expected a configuration object, got " ++ other.text))

def take (r : Response) : (x : Holds) → Except ApiError x.Val
  | .nothing => .ok ()
  | .model s => r.decode s
  | .part s _ f => (r.decode s).map f
  | .object => r.json.bind objectOf
  | .text => r.text
  | .stream => r.stream

end Holds

structure Endpoint where
  method : Method
  path : List Segment
  sends : Sends
  timeout : CallTimeout
  asks : Option ResponseKind
  holds : Holds

namespace Endpoint

def pathText (e : Endpoint) (arguments : Arguments) : String :=
  "/".intercalate (e.path.map (Segment.text arguments))

def call (e : Endpoint) (arguments : Arguments) (v : e.sends.Val) : Except ApiError Call :=
  e.sends.apply arguments
    { Call.ofPath e.method (e.pathText arguments) with
      kind := e.asks
      timeout := e.timeout } v

def exchange (e : Endpoint) (c : Client) (around : Surroundings) (s : Session)
    (arguments : Arguments) (v : e.sends.Val) (reaction : Reaction) : Exchange e.holds.Val :=
  match e.call arguments v with
  | .error err => .refuse s err
  | .ok call => (c.call around s call reaction).andThen fun r => .now (e.holds.take r)

def powerTimeout : CallTimeout :=
  .after (.ofSeconds 60)

def fetch (path : List Segment) (s : Shape) : Endpoint where
  method := .get
  path := path
  sends := .nothing
  timeout := .standard
  asks := none
  holds := .model s

def fetchPart (path : List Segment) (s t : Shape) (f : s.Val → t.Val) : Endpoint :=
  { fetch path s with holds := .part s t f }

def fetchText (path : List Segment) : Endpoint where
  method := .get
  path := path
  sends := .nothing
  timeout := .standard
  asks := some .text
  holds := .text

def probe (path : List Segment) : Endpoint where
  method := .get
  path := path
  sends := .nothing
  timeout := .standard
  asks := some .none
  holds := .nothing

def send (path : List Segment) (sends : Sends) : Endpoint where
  method := .post
  path := path
  sends := sends
  timeout := .standard
  asks := none
  holds := .nothing

def command (path : List Segment) : Endpoint :=
  send path .nothing

def sendWithin (timeout : CallTimeout) (path : List Segment) (sends : Sends) : Endpoint :=
  { send path sends with timeout := timeout }

def ask (path : List Segment) (sends : Sends) (s : Shape) : Endpoint :=
  { send path sends with
    asks := some .json
    holds := .model s }

def remove (path : List Segment) : Endpoint where
  method := .delete
  path := path
  sends := .nothing
  timeout := .standard
  asks := none
  holds := .nothing

end Endpoint

end SupervisorApi
