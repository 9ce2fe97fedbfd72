/-!
UTF-8 as bytes. `decode` refuses at the first place where no character can be read and says how
much of the input is at fault there.
-/

set_option autoImplicit false

namespace SupervisorApi

abbrev Bytes := List UInt8

namespace Utf8

inductive Fault where
  -- The bytes at `index` begin no character; `length` of them form the longest bad start.
  | invalid (length index : Nat)
  -- The input ends inside a character that is good so far.
  | incomplete (index : Nat)
  deriving DecidableEq, Repr

def Fault.message : Fault → String
  | .invalid n i => s!"invalid utf-8 sequence of {n} bytes from index {i}"
  | .incomplete i => s!"incomplete utf-8 byte sequence from index {i}"

def encode (s : String) : Bytes :=
  s.toList.flatMap String.utf8EncodeChar

def within (b low high : UInt8) : Bool :=
  low ≤ b && b ≤ high

def isTrail (b : UInt8) : Bool :=
  within b 0x80 0xBF

-- Second bytes of a three byte character: no overlong form and no surrogate.
def isSecondOfThree (a b : UInt8) : Bool :=
  within b (if a = 0xE0 then 0xA0 else 0x80) (if a = 0xED then 0x9F else 0xBF)

-- Second bytes of a four byte character: no overlong form and nothing above U+10FFFF.
def isSecondOfFour (a b : UInt8) : Bool :=
  within b (if a = 0xF0 then 0x90 else 0x80) (if a = 0xF4 then 0x8F else 0xBF)

def tail (b : UInt8) : Nat :=
  b.toNat - 0x80

def two (a b : UInt8) : Char :=
  Char.ofNat ((a.toNat - 0xC0) * 64 + tail b)

def three (a b c : UInt8) : Char :=
  Char.ofNat ((a.toNat - 0xE0) * 4096 + tail b * 64 + tail c)

def four (a b c d : UInt8) : Char :=
  Char.ofNat ((a.toNat - 0xF0) * 262144 + tail b * 4096 + tail c * 64 + tail d)

def decodeFrom (i : Nat) : Bytes → Except Fault (List Char)
  | [] => .ok []
  | a :: rest =>
    if a < 0x80 then (decodeFrom (i + 1) rest).map (Char.ofNat a.toNat :: ·)
    else if within a 0xC2 0xDF then
      match rest with
      | [] => .error (.incomplete i)
      | b :: rest =>
        if isTrail b then (decodeFrom (i + 2) rest).map (two a b :: ·)
        else .error (.invalid 1 i)
    else if within a 0xE0 0xEF then
      match rest with
      | [] => .error (.incomplete i)
      | b :: rest =>
        if isSecondOfThree a b then
          match rest with
          | [] => .error (.incomplete i)
          | c :: rest =>
            if isTrail c then (decodeFrom (i + 3) rest).map (three a b c :: ·)
            else .error (.invalid 2 i)
        else .error (.invalid 1 i)
    else if within a 0xF0 0xF4 then
      match rest with
      | [] => .error (.incomplete i)
      | b :: rest =>
        if isSecondOfFour a b then
          match rest with
          | [] => .error (.incomplete i)
          | c :: rest =>
            if isTrail c then
              match rest with
              | [] => .error (.incomplete i)
              | d :: rest =>
                if isTrail d then (decodeFrom (i + 4) rest).map (four a b c d :: ·)
                else .error (.invalid 3 i)
            else .error (.invalid 2 i)
        else .error (.invalid 1 i)
    else .error (.invalid 1 i)

def decode (bs : Bytes) : Except Fault String :=
  (decodeFrom 0 bs).map String.ofList

def decode? (bs : Bytes) : Option String :=
  (decode bs).toOption

-- Reads as far as possible; each place where no character can be read gives one replacement.
def decodeLossyFrom : Nat → Bytes → List Char
  | 0, _ => []
  | n + 1, bs =>
    match decodeFrom 0 bs with
    | .ok cs => cs
    | .error (.incomplete i) => read (bs.take i) ++ ['\uFFFD']
    | .error (.invalid length i) =>
      read (bs.take i) ++ '\uFFFD' :: decodeLossyFrom n (bs.drop (i + length))
where
  read (bs : Bytes) : List Char :=
    ((decodeFrom 0 bs).toOption).getD []

def decodeLossy (bs : Bytes) : String :=
  String.ofList (decodeLossyFrom (bs.length + 1) bs)

end Utf8

end SupervisorApi
