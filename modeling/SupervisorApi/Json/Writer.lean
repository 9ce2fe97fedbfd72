import SupervisorApi.Decimal.Shortest
import SupervisorApi.Json.Token

set_option autoImplicit false

namespace SupervisorApi

namespace Binary64

def isPositional (order : Int) : Bool :=
  -5 ≤ order && order < 16

def fractionOr0 (ds : List Nat) : List Nat :=
  if ds.isEmpty then [0] else ds

def numeral (x : Binary64) : Numeral :=
  if x.isZero then ⟨x.negative, [0], some [0], none⟩
  else
    let d := x.shortest
    let order := d.point - 1
    if isPositional order then
      if d.point ≤ 0 then
        ⟨x.negative, [0], some (List.replicate (-d.point).toNat 0 ++ d.digits), none⟩
      else
        let n := d.point.toNat
        ⟨x.negative, d.digits.take n ++ List.replicate (n - d.digits.length) 0,
          some (fractionOr0 (d.digits.drop n)), none⟩
    else
      ⟨x.negative, d.digits.take 1,
        if d.digits.length ≤ 1 then none else some (d.digits.drop 1),
        some (order < 0, decimal order.natAbs)⟩

end Binary64

def Numeral.ofInt (n : Int) : Numeral :=
  ⟨n < 0, Binary64.decimal n.natAbs, none, none⟩

namespace Json

-- A number that is not finite has no spelling and is written as null.
def realToken (x : Binary64) : Token :=
  if x.isFinite then .num x.numeral else .null

def hexDigit (n : Nat) : UInt8 :=
  UInt8.ofNat (if n < 10 then 48 + n else 87 + n)

def pieces (s : String) : List Piece :=
  (Utf8.encode s).map Piece.byte

def escape (b : UInt8) : Bytes :=
  if b = 34 then [92, 34]
  else if b = 92 then [92, 92]
  else if b = 8 then [92, 98]
  else if b = 9 then [92, 116]
  else if b = 10 then [92, 110]
  else if b = 12 then [92, 102]
  else if b = 13 then [92, 114]
  else if b < 32 then [92, 117, 48, 48, hexDigit (b.toNat / 16), hexDigit (b.toNat % 16)]
  else [b]

mutual
def tokens : Json → List Token
  | .null => [.null]
  | .bool b => [.bool b]
  | .int n => [.num (Numeral.ofInt n)]
  | .real x => [realToken x]
  | .str s => [.str (pieces s)]
  | .arr xs => .lbracket :: (itemTokens xs ++ [.rbracket])
  | .obj ms => .lbrace :: (memberTokens ms ++ [.rbrace])

def itemTokens : List Json → List Token
  | [] => []
  | [x] => tokens x
  | x :: xs => tokens x ++ .comma :: itemTokens xs

def memberTokens : List (String × Json) → List Token
  | [] => []
  | [(k, v)] => .str (pieces k) :: .colon :: tokens v
  | (k, v) :: ms => .str (pieces k) :: .colon :: (tokens v ++ .comma :: memberTokens ms)
end

def pieceBytes : Piece → Bytes
  | .byte b => escape b
  | .unit u =>
    [92, 117, hexDigit (u / 4096 % 16), hexDigit (u / 256 % 16), hexDigit (u / 16 % 16),
      hexDigit (u % 16)]

def tokenBytes : Token → Bytes
  | .lbrace => [123]
  | .rbrace => [125]
  | .lbracket => [91]
  | .rbracket => [93]
  | .comma => [44]
  | .colon => [58]
  | .null => [110, 117, 108, 108]
  | .bool true => [116, 114, 117, 101]
  | .bool false => [102, 97, 108, 115, 101]
  | .num n => n.render
  | .str ps => 34 :: (ps.flatMap pieceBytes ++ [34])
  | .broken => []

def bytes (j : Json) : Bytes :=
  j.tokens.flatMap tokenBytes

def text (j : Json) : String :=
  (Utf8.decode? j.bytes).getD ""

end Json

end SupervisorApi
