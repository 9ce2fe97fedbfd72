import SupervisorApi.Json.Basic
import SupervisorApi.Model.Shape
import SupervisorApi.Timestamp.Printer

set_option autoImplicit false

namespace SupervisorApi

namespace Presence

variable {α : Type}

def write (p : Presence) (name : String) (encode : α → Json) : p.Val α → List (String × Json) :=
  match p with
  | .required => fun a => [(name, encode a)]
  | .optional => fun
    | some a => [(name, encode a)]
    | none => [(name, .null)]
  | .omitted => fun
    | some a => [(name, encode a)]
    | none => []
  | .field => fun
    | .value a => [(name, encode a)]
    | .null => [(name, .null)]
    | .unset => []

def same (p : Presence) (eq : α → α → Bool) : p.Val α → p.Val α → Bool :=
  match p with
  | .required => eq
  | .optional | .omitted => fun
    | some a, some b => eq a b
    | none, none => true
    | _, _ => false
  | .field => fun
    | .value a, .value b => eq a b
    | .null, .null => true
    | .unset, .unset => true
    | _, _ => false

end Presence

namespace Encode

-- JSON has finite numbers only.
def real (x : Binary64) : Json :=
  if x.isFinite then .real x else .null

def key : (k : Key) → k.Val → Json
  | .nullableText, s => Location.encodeText s
  | .choice c, v => c.encode v

def selection (s : Selection) : List (String × Json) :=
  Presence.omitted.write "addons" AddonSelection.encode s.parts.addons
    ++ Presence.omitted.write "folders" (fun f => .arr (f.items.map folder.encode)) s.parts.folders
    ++ Presence.omitted.write "homeassistant" .bool s.parts.homeassistant

end Encode

namespace Tree

variable {α : Type}

mutual
def encode (own : α → List (String × Json)) (children : String) : Tree α → Json
  | .node a ts => Json.ofMembers (own a ++ [(children, .arr (encodeAll own children ts))])

def encodeAll (own : α → List (String × Json)) (children : String) : List (Tree α) → List Json
  | [] => []
  | t :: ts => encode own children t :: encodeAll own children ts
end

mutual
def same (eq : α → α → Bool) : Tree α → Tree α → Bool
  | .node a ts, .node b us => eq a b && sameAll eq ts us

def sameAll (eq : α → α → Bool) : List (Tree α) → List (Tree α) → Bool
  | [], [] => true
  | t :: ts, u :: us => same eq t u && sameAll eq ts us
  | _, _ => false
end

end Tree

mutual

def Shape.encode : (s : Shape) → s.Val → Json
  | .bool, b => .bool b
  | .int64, n => .int n.toInt
  | .port, n => .int n.toNat
  | .real, x => Encode.real x
  | .text, s => .str s
  | .json, j => j
  | .object, ms => .obj ms
  | .ipv4, x => .str x.render
  | .ipv6, x => .str x.render
  | .uuid, u => .str u.render
  | .timestamp, t => .str t.render
  | .choice c, v => c.encode v
  | .lenient _, x => x.encode
  | .location, l => l.encode
  | .nullable _, none => .null
  | .nullable s, some a => s.encode a
  | .list s, as => .arr (as.map s.encode)
  | .dict s, d => Json.ofMembers (d.entries.map fun e => (e.1, s.encode e.2))
  | .set k, set => .arr (set.items.map (Encode.key k))
  | .record own parts, (a, b) => Json.ofMembers (own.encode a ++ parts.encode b)
  | .selection, s => Json.ofMembers (Encode.selection s)
  | .tagged tag alternatives, v => Json.ofMembers (alternatives.encode tag v)
  | .tree own children, t => Tree.encode own.encode children t

def Slots.encode : (own : Slots) → own.Val → List (String × Json)
  | .nil, _ => []
  | .cons n p s rest, (a, b) => p.write n s.encode a ++ rest.encode b

def Parts.encode : (parts : Parts) → parts.Val → List (String × Json)
  | .nil, _ => []
  | .record own parts rest, ((a, b), c) => own.encode a ++ parts.encode b ++ rest.encode c
  | .selection rest, (a, c) => Encode.selection a ++ rest.encode c

def Alternatives.encode (tag : String) : (alternatives : Alternatives) → alternatives.Val →
    List (String × Json)
  | .cons n own parts _, .inl (a, b) => (tag, .str n) :: (own.encode a ++ parts.encode b)
  | .cons _ _ _ rest, .inr v => rest.encode tag v

end

def alike {α : Type} [DecidableEq α] (a b : α) : Bool :=
  decide (a = b)

def listSame {α : Type} (eq : α → α → Bool) : List α → List α → Bool
  | [], [] => true
  | a :: as, b :: bs => eq a b && listSame eq as bs
  | _, _ => false

namespace Encode

def sameAddons : AddonSelection → AddonSelection → Bool
  | .all, .all => true
  | .slugs s, .slugs t => s.items == t.items
  | _, _ => false

def sameSelection (s t : Selection) : Bool :=
  Presence.optional.same sameAddons s.parts.addons t.parts.addons
    && Presence.optional.same (fun f g => f.items == g.items) s.parts.folders t.parts.folders
    && s.parts.homeassistant == t.parts.homeassistant

def sameKeys : (k : Key) → List k.Val → List k.Val → Bool
  | .nullableText, as, bs => listSame (fun (a b : Option String) => a == b) as bs
  | .choice c, as, bs => listSame (fun (a b : c.Value) => a == b) as bs

end Encode

mutual

-- Equality of values; timestamps are equal when they are the same moment.
def Shape.same : (s : Shape) → s.Val → s.Val → Bool
  | .bool, a, b => @alike Bool _ a b
  | .int64, a, b => @alike Int64 _ a b
  | .port, a, b => @alike UInt16 _ a b
  | .real, a, b => Binary64.same a b
  | .text, a, b => @alike String _ a b
  | .json, a, b => Json.same a b
  | .object, a, b => Json.sameMembers a b
  | .ipv4, a, b => @alike Ipv4 _ a b
  | .ipv6, a, b => @alike Ipv6 _ a b
  | .uuid, a, b => @alike Uuid _ a b
  | .timestamp, a, b => Timestamp.sameMoment a b
  | .choice c, a, b => @alike c.Value _ a b
  | .lenient c, a, b => @alike (Lenient c) _ a b
  | .location, a, b => @alike Location _ a b
  | .nullable s, a, b => Presence.optional.same s.same a b
  | .list s, a, b => listSame s.same a b
  | .dict s, a, b => listSame (fun x y => x.1 == y.1 && s.same x.2 y.2) a.entries b.entries
  | .set k, a, b => Encode.sameKeys k a.items b.items
  | .record own parts, a, b => own.same a.1 b.1 && parts.same a.2 b.2
  | .selection, a, b => Encode.sameSelection a b
  | .tagged _ alternatives, a, b => alternatives.same a b
  | .tree own _, a, b => Tree.same own.same a b

def Slots.same : (own : Slots) → own.Val → own.Val → Bool
  | .nil, _, _ => true
  | .cons _ p s rest, a, b => p.same s.same a.1 b.1 && rest.same a.2 b.2

def Parts.same : (parts : Parts) → parts.Val → parts.Val → Bool
  | .nil, _, _ => true
  | .record own parts rest, a, b =>
    own.same a.1.1 b.1.1 && parts.same a.1.2 b.1.2 && rest.same a.2 b.2
  | .selection rest, a, b => Encode.sameSelection a.1 b.1 && rest.same a.2 b.2

def Alternatives.same : (alternatives : Alternatives) → alternatives.Val → alternatives.Val → Bool
  | .nil, _, _ => true
  | .cons _ own parts _, .inl a, .inl b => own.same a.1 b.1 && parts.same a.2 b.2
  | .cons _ _ _ rest, .inr a, .inr b => rest.same a b
  | .cons _ _ _ _, _, _ => false

end

end SupervisorApi
