import SupervisorApi.Model.Field
import SupervisorApi.Model.Selection
import SupervisorApi.Net.Address
import SupervisorApi.Timestamp.Basic
import SupervisorApi.Uuid

set_option autoImplicit false

namespace SupervisorApi

inductive Key where
  | nullableText
  | choice (c : Choice)

abbrev Key.Val : Key → Type
  | .nullableText => Option String
  | .choice c => c.Value

instance (k : Key) : KeyOrder k.Val :=
  match k with
  | .nullableText => inferInstanceAs (KeyOrder (Option String))
  | .choice c => inferInstanceAs (KeyOrder (Fin c.names.length))

inductive Presence where
  | required
  -- Nothing is written as null, and read from null or from no member.
  | optional
  -- Nothing is not written, and read from null or from no member.
  | omitted
  | field
  deriving DecidableEq, Repr

abbrev Presence.Val : Presence → Type → Type
  | .required, α => α
  | .optional, α => Option α
  | .omitted, α => Option α
  | .field, α => Field α

inductive Tree (α : Type) where
  | node (own : α) (children : List (Tree α))

mutual

inductive Shape where
  | bool
  | int64
  | port
  | real
  | text
  | json
  | object
  | ipv4
  | ipv6
  | uuid
  | timestamp
  | choice (c : Choice)
  | lenient (c : Choice)
  | location
  | nullable (s : Shape)
  | list (s : Shape)
  | dict (s : Shape)
  | set (k : Key)
  | record (own : Slots) (parts : Parts)
  | selection
  -- Alternatives told apart by the text of one member.
  | tagged (tag : String) (alternatives : Alternatives)
  -- A record whose last member is a list of such records.
  | tree (own : Slots) (children : String)

inductive Slots where
  | nil
  | cons (name : String) (presence : Presence) (shape : Shape) (rest : Slots)

inductive Parts where
  | nil
  | record (own : Slots) (parts : Parts) (rest : Parts)
  | selection (rest : Parts)

inductive Alternatives where
  | nil
  | cons (name : String) (own : Slots) (parts : Parts) (rest : Alternatives)

end

mutual

def Shape.Val : Shape → Type
  | .bool => Bool
  | .int64 => Int64
  | .port => UInt16
  | .real => Binary64
  | .text => String
  | .json => Json
  | .object => Members
  | .ipv4 => Ipv4
  | .ipv6 => Ipv6
  | .uuid => Uuid
  | .timestamp => Timestamp
  | .choice c => c.Value
  | .lenient c => Lenient c
  | .location => Location
  | .nullable s => Option s.Val
  | .list s => List s.Val
  | .dict s => Dict s.Val
  | .set k => SortedSet k.Val
  | .record own parts => own.Val × parts.Val
  | .selection => Selection
  | .tagged _ alternatives => alternatives.Val
  | .tree own _ => Tree own.Val

def Slots.Val : Slots → Type
  | .nil => Unit
  | .cons _ p s rest => p.Val s.Val × rest.Val

def Parts.Val : Parts → Type
  | .nil => Unit
  | .record own parts rest => (own.Val × parts.Val) × rest.Val
  | .selection rest => Selection × rest.Val

def Alternatives.Val : Alternatives → Type
  | .nil => Empty
  | .cons _ own parts rest => (own.Val × parts.Val) ⊕ rest.Val

end

def Parts.isNil : Parts → Bool
  | .nil => true
  | _ => false

namespace Slots

def append : Slots → Slots → Slots
  | .nil, t => t
  | .cons n p s rest, t => .cons n p s (append rest t)

def names : Slots → List String
  | .nil => []
  | .cons n _ _ rest => n :: names rest

def all (p : Presence) : List (String × Shape) → Slots
  | [] => .nil
  | (n, s) :: rest => .cons n p s (all p rest)

end Slots

def Alternatives.names : Alternatives → List String
  | .nil => []
  | .cons n _ _ rest => n :: names rest

end SupervisorApi
