import SupervisorApi.Decode.Error
import SupervisorApi.Json.Token

set_option autoImplicit false

namespace SupervisorApi

-- What ends the reading of a text: the text is no JSON, or it is not of the wanted form.
inductive TextFault where
  | malformed
  | refused (e : DecodeError)
  deriving DecidableEq, Repr

abbrev Reader (α : Type) := List Token → Except TextFault (α × List Token)

namespace Json

def maxDepth : Nat := 127

def itemsFrom {σ : Type} (close : Token) (item : σ → Reader σ) :
    Nat → σ → List Token → Except TextFault (σ × List Token)
  | 0, _, _ => .error .malformed
  | n + 1, s, ts => do
    let (s, ts) ← item s ts
    match ts with
    | .comma :: ts => itemsFrom close item n s ts
    | t :: ts => if t = close then .ok (s, ts) else .error .malformed
    | [] => .error .malformed

def items {σ : Type} (close : Token) (item : σ → Reader σ) (s : σ)
    (ts : List Token) : Except TextFault (σ × List Token) :=
  match ts with
  | t :: rest => if t = close then .ok (s, rest) else itemsFrom close item ts.length s ts
  | [] => .error .malformed

def key : List Token → Except TextFault (String × List Token)
  | .str ps :: ts =>
    match Piece.text ps with
    | some k => .ok (k, ts)
    | none => .error .malformed
  | _ => .error .malformed

def colon : List Token → Except TextFault (List Token)
  | .colon :: ts => .ok ts
  | _ => .error .malformed

def element (read : Reader Json) (xs : List Json) (ts : List Token) :
    Except TextFault (List Json × List Token) := do
  let (x, ts) ← read ts
  return (x :: xs, ts)

def member (read : Reader Json) (ms : Members) (ts : List Token) :
    Except TextFault (Members × List Token) := do
  let (k, ts) ← key ts
  let ts ← colon ts
  let (v, ts) ← read ts
  return (ms.put k v, ts)

def scalar : Token → Option Json
  | .null => some .null
  | .bool b => some (.bool b)
  | .num n => n.value
  | .str ps => (Piece.text ps).map .str
  | _ => none

def read : Nat → List Token → Except TextFault (Json × List Token)
  | depth + 1, .lbracket :: ts => do
    let (xs, ts) ← items .rbracket (element (read depth)) [] ts
    return (.arr xs.reverse, ts)
  | depth + 1, .lbrace :: ts => do
    let (ms, ts) ← items .rbrace (member (read depth)) [] ts
    return (.obj ms, ts)
  | _, t :: ts =>
    match scalar t with
    | some v => .ok (v, ts)
    | none => .error .malformed
  | _, [] => .error .malformed

def readObject (depth : Nat) (ts : List Token) : Except TextFault (Members × List Token) :=
  items .rbrace (member (read depth)) [] ts

def parse (text : Bytes) : Except TextFault Json :=
  match read maxDepth (Token.tokens text) with
  | .ok (v, []) => .ok v
  | .ok _ => .error .malformed
  | .error e => .error e

-- A value of another type than the wanted one. Its text must still be sound up to there.
def mismatch : List Token → TextFault
  | .null :: _ | .bool _ :: _ | .lbracket :: _ | .lbrace :: _ => .refused .mismatched
  | .num n :: _ => if n.value.isSome then .refused .mismatched else .malformed
  | .str ps :: _ => if (Piece.text ps).isSome then .refused .mismatched else .malformed
  | _ => .malformed

inductive Frame where
  | array
  | object
  deriving DecidableEq, Repr

inductive Due where
  | value
  | firstItem
  | firstMember
  | member
  | next
  deriving DecidableEq, Repr

def Frame.close : Frame → Token
  | .array => .rbracket
  | .object => .rbrace

def Frame.due : Frame → Due
  | .array => .value
  | .object => .member

/-- Passes over the rest of a value: what is due, and the brackets that are open. Quoted texts and
numbers are not looked into. -/
def skip : Due → List Frame → List Token → Except TextFault (List Token)
  | .next, [], ts => .ok ts
  | _, _, [] => .error .malformed
  | .next, f :: fs, t :: ts =>
    if t = .comma then skip f.due (f :: fs) ts
    else if t = f.close then skip .next fs ts
    else .error .malformed
  | .member, fs, .str _ :: .colon :: ts => skip .value fs ts
  | .member, _, _ => .error .malformed
  | .firstMember, fs, .str _ :: .colon :: ts => skip .value fs ts
  | .firstMember, _ :: fs, .rbrace :: ts => skip .next fs ts
  | .firstMember, _, _ => .error .malformed
  | .firstItem, _ :: fs, .rbracket :: ts => skip .next fs ts
  | _, fs, .lbracket :: ts => skip .firstItem (.array :: fs) ts
  | _, fs, .lbrace :: ts => skip .firstMember (.object :: fs) ts
  | _, fs, .null :: ts | _, fs, .bool _ :: ts | _, fs, .num _ :: ts | _, fs, .str _ :: ts =>
    skip .next fs ts
  | _, _, _ => .error .malformed

def skipValue (ts : List Token) : Except TextFault (List Token) :=
  skip .value [] ts

end Json

end SupervisorApi
