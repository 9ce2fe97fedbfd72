import SupervisorApi.Text.Digits

/-!
Internet addresses: dotted quads, and the texts of RFC 4291 without a zone, which are written in the
form of RFC 5952.
-/

set_option autoImplicit false

namespace SupervisorApi

structure Ipv4 where
  a : UInt8
  b : UInt8
  c : UInt8
  d : UInt8
  deriving DecidableEq, Repr

structure Ipv6 where
  groups : List UInt16
  eight : groups.length = 8
  deriving DecidableEq, Repr

namespace Ipv4

def part (s : List Char) : Option (UInt8 × List Char) :=
  match Digits.take 4 s with
  | ([], _) => none
  | (0 :: _ :: _, _) => none
  | (ds, r) =>
    if ds.length ≤ 3 ∧ Digits.number ds < 256 then some (UInt8.ofNat (Digits.number ds), r) else none

def dot : List Char → Option (List Char)
  | '.' :: s => some s
  | _ => none

def scan (s : List Char) : Option (Ipv4 × List Char) := do
  let (a, s) ← part s
  let (b, s) ← part (← dot s)
  let (c, s) ← part (← dot s)
  let (d, s) ← part (← dot s)
  return (⟨a, b, c, d⟩, s)

def parse (s : String) : Option Ipv4 :=
  match scan s.toList with
  | some (x, []) => some x
  | _ => none

def render (x : Ipv4) : String :=
  toString x.a.toNat ++ "." ++ toString x.b.toNat ++ "." ++ toString x.c.toNat ++ "."
    ++ toString x.d.toNat

end Ipv4

namespace Ipv6

def ofGroups (groups : List UInt16) : Option Ipv6 :=
  if h : groups.length = 8 then some ⟨groups, h⟩ else none

def hexDigits : Nat → List Char → List Nat × List Char
  | 0, s => ([], s)
  | _ + 1, [] => ([], [])
  | n + 1, c :: s =>
    match Digits.hexValue? c with
    | some d => let (ds, r) := hexDigits n s; (d :: ds, r)
    | none => ([], c :: s)

def group (s : List Char) : Option (UInt16 × List Char) :=
  match hexDigits 5 s with
  | ([], _) => none
  | (ds, r) =>
    if ds.length ≤ 4 then some (UInt16.ofNat (ds.foldl (fun n d => 16 * n + d) 0), r) else none

def pair (x y : UInt8) : UInt16 :=
  UInt16.ofNat (x.toNat * 256 + y.toNat)

def between (first : Bool) (s : List Char) : Option (List Char) :=
  if first then some s
  else
    match s with
    | ':' :: s => some s
    | _ => none

-- As many groups as there are, at most `room`; a dotted quad is two groups and ends them.
def run : Nat → Bool → List Char → List UInt16 × Bool × List Char
  | 0, _, s => ([], false, s)
  | room + 1, first, s =>
    match between first s with
    | none => ([], false, s)
    | some t =>
      match (if 0 < room then Ipv4.scan t else none) with
      | some (x, r) => ([pair x.a x.b, pair x.c x.d], true, r)
      | none =>
        match group t with
        | some (g, r) => let (gs, quad, r) := run room false r; (g :: gs, quad, r)
        | none => ([], false, s)

def parse (s : String) : Option Ipv6 :=
  match run 8 true s.toList with
  | (front, quad, rest) =>
    if front.length = 8 then (if rest = [] then ofGroups front else none)
    else if quad then none
    else
      match rest with
      | ':' :: ':' :: rest =>
        match run (7 - front.length) true rest with
        | (back, _, []) =>
          ofGroups (front ++ List.replicate (8 - front.length - back.length) 0 ++ back)
        | _ => none
      | _ => none

def hex (g : UInt16) : List Char :=
  Nat.toDigits 16 g.toNat

def joinGroups (gs : List UInt16) : List Char :=
  [':'].intercalate (gs.map hex)

def zeros (gs : List UInt16) : Nat :=
  (gs.takeWhile (· = 0)).length

def longestGap (gs : List UInt16) : Nat × Nat :=
  (List.range gs.length).foldl
    (fun best i => if best.2 < zeros (gs.drop i) then (i, zeros (gs.drop i)) else best) (0, 0)

def mapped? (gs : List UInt16) : Option Ipv4 :=
  match gs with
  | [0, 0, 0, 0, 0, 0xFFFF, x, y] =>
    some ⟨(x >>> 8).toUInt8, x.toUInt8, (y >>> 8).toUInt8, y.toUInt8⟩
  | _ => none

-- The longest run of two or more zero groups is left out; a mapped quad is written as one.
def render (x : Ipv6) : String :=
  match mapped? x.groups with
  | some q => "::ffff:" ++ q.render
  | none =>
    let (start, length) := longestGap x.groups
    String.ofList
      (if 2 ≤ length then
        joinGroups (x.groups.take start) ++ [':', ':'] ++ joinGroups (x.groups.drop (start + length))
      else joinGroups x.groups)

end Ipv6

end SupervisorApi
