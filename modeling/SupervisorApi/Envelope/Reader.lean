import SupervisorApi.Envelope.Basic
import SupervisorApi.Json.Reader

set_option autoImplicit false

namespace SupervisorApi

namespace Envelope

open Json (colon key mismatch)

inductive Part where
  | result
  | message
  | jobId
  | errorKey
  | extraFields
  | data
  deriving DecidableEq, Repr

namespace Part

def all : List Part :=
  [.result, .message, .jobId, .errorKey, .extraFields, .data]

def name : Part → String
  | .result => "result"
  | .message => "message"
  | .jobId => "job_id"
  | .errorKey => "error_key"
  | .extraFields => "extra_fields"
  | .data => "data"

def ofName (s : String) : Option Part :=
  all.find? fun p => p.name = s

end Part

structure Draft where
  met : List Part
  envelope : Envelope

namespace Draft

def empty : Draft :=
  ⟨[], .ok none⟩

def finish (d : Draft) : Except TextFault Envelope :=
  if .result ∈ d.met then .ok d.envelope else .error (.refused (.missing Part.result.name))

end Draft

def nullable {α : Type} (read : Reader α) : Reader (Option α) := fun ts =>
  match ts with
  | .null :: ts => .ok (none, ts)
  | ts => (read ts).map fun (a, ts) => (some a, ts)

def text : Reader String := fun ts =>
  match ts with
  | .str ps :: ts =>
    match Piece.text ps with
    | some s => .ok (s, ts)
    | none => .error .malformed
  | ts => .error (mismatch ts)

def object (depth : Nat) : Reader Members := fun ts =>
  match ts with
  | .lbrace :: ts => Json.readObject depth ts
  | ts => .error (mismatch ts)

def outcomeOf (s : String) : Except TextFault Outcome :=
  if s = Outcome.ok.name then .ok .ok
  else if s = Outcome.error.name then .ok .error
  else .error (.refused (.unknownVariant s [Outcome.ok.name, Outcome.error.name]))

-- A result is its name, or an object whose one member has that name and is null.
def outcome : Reader Outcome := fun ts =>
  match ts with
  | .str ps :: ts => do
    let (s, ts) ← text (.str ps :: ts)
    return (← outcomeOf s, ts)
  | .lbrace :: ts => do
    let (s, ts) ← text ts
    let o ← outcomeOf s
    match ← colon ts with
    | .null :: .rbrace :: ts => .ok (o, ts)
    | .null :: _ => .error .malformed
    | ts => .error (mismatch ts)
  | _ => .error .malformed

def readPart (depth : Nat) (p : Part) (e : Envelope) : Reader Envelope := fun ts =>
  match p with
  | .result => (outcome ts).map fun (v, ts) => ({ e with result := v }, ts)
  | .message => (nullable text ts).map fun (v, ts) => ({ e with message := v }, ts)
  | .jobId => (nullable text ts).map fun (v, ts) => ({ e with jobId := v }, ts)
  | .errorKey => (nullable text ts).map fun (v, ts) => ({ e with errorKey := v }, ts)
  | .extraFields =>
    (nullable (object depth) ts).map fun (v, ts) => ({ e with extraFields := v }, ts)
  | .data => (nullable (Json.read (depth + 1)) ts).map fun (v, ts) => ({ e with data := v }, ts)

def readMember (depth : Nat) (d : Draft) : Reader Draft := fun ts => do
  let (k, ts) ← key ts
  match Part.ofName k with
  | some p =>
    if p ∈ d.met then .error (.refused (.repeated p.name))
    else
      let (e, ts) ← readPart depth p d.envelope (← colon ts)
      return (⟨p :: d.met, e⟩, ts)
  | none => return (d, ← Json.skipValue (← colon ts))

def readRow (depth : Nat) : List Part → Draft → Reader Draft
  | [], _, _ => .error .malformed
  | p :: ps, d, ts => do
    let (e, ts) ← readPart depth p d.envelope ts
    match ts with
    | .rbracket :: ts => .ok (⟨p :: d.met, e⟩, ts)
    | .comma :: ts => readRow depth ps ⟨p :: d.met, e⟩ ts
    | _ => .error .malformed

def partDepth : Nat := Json.maxDepth - 2

def readDraft : List Token → Except TextFault (Draft × List Token)
  | .lbrace :: ts => Json.items .rbrace (readMember partDepth) Draft.empty ts
  | .lbracket :: .rbracket :: _ => .error (.refused .mismatched)
  | .lbracket :: ts => readRow partDepth Part.all Draft.empty ts
  | ts => .error (mismatch ts)

def ofTokens (ts : List Token) : Except TextFault Envelope := do
  let (d, rest) ← readDraft ts
  let e ← d.finish
  if rest.isEmpty then .ok e else .error .malformed

def parse (body : Bytes) : Except TextFault Envelope :=
  ofTokens (Token.tokens body)

end Envelope

end SupervisorApi
