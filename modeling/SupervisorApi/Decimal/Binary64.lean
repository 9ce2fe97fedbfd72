/-!
Binary floating point of 64 bits, by its bit pattern and in exact arithmetic: a finite pattern is
plus or minus `significand · 2 ^ exponent`, and `ofRatio` rounds a quotient to the nearest pattern,
a tie to the even one.
-/

set_option autoImplicit false

namespace SupervisorApi

structure Binary64 where
  bits : UInt64
  deriving DecidableEq, Repr, Inhabited

namespace Binary64

def negative (x : Binary64) : Bool :=
  Nat.pow 2 63 ≤ x.bits.toNat

def magnitude (x : Binary64) : Nat :=
  x.bits.toNat % Nat.pow 2 63

def biased (x : Binary64) : Nat :=
  x.magnitude / Nat.pow 2 52

def significand (x : Binary64) : Nat :=
  if x.biased = 0 then x.magnitude else x.magnitude % Nat.pow 2 52 + Nat.pow 2 52

def exponent (x : Binary64) : Int :=
  (max x.biased 1 : Nat) - 1075

def isZero (x : Binary64) : Bool :=
  x.magnitude = 0

def isFinite (x : Binary64) : Bool :=
  x.biased < 2047

-- The quotient rounded to the nearest integer, a tie to the even one.
def roundDiv (num den : Nat) : Nat :=
  let q := num / den
  let r := num % den
  if 2 * r < den then q else if den < 2 * r then q + 1 else q + q % 2

def binaryOrder (num den : Nat) : Int :=
  let e : Int := (Nat.log2 num : Int) - Nat.log2 den
  if den * Nat.pow 2 e.toNat ≤ num * Nat.pow 2 (-e).toNat then e else e - 1

def ofSign (negative : Bool) (magnitude : Nat) : Binary64 :=
  ⟨UInt64.ofNat ((if negative then Nat.pow 2 63 else 0) + magnitude)⟩

def ofRatio (negative : Bool) (num den : Nat) : Binary64 :=
  if num = 0 then ofSign negative 0
  else
    let q := max (binaryOrder num den - 52) (-1074)
    let m := roundDiv (num * Nat.pow 2 (-q).toNat) (den * Nat.pow 2 q.toNat)
    ofSign negative (min ((q + 1074).toNat * Nat.pow 2 52 + m) (2047 * Nat.pow 2 52))

def ofNat (n : Nat) : Binary64 :=
  ofRatio false n 1

def ofInt (n : Int) : Binary64 :=
  ofRatio (decide (n < 0)) n.natAbs 1

def ratio (x : Binary64) : Nat × Nat :=
  (x.significand * Nat.pow 2 x.exponent.toNat, Nat.pow 2 (-x.exponent).toNat)

def mul (x y : Binary64) : Binary64 :=
  ofRatio (x.negative != y.negative) (x.ratio.1 * y.ratio.1) (x.ratio.2 * y.ratio.2)

def div (x y : Binary64) : Binary64 :=
  ofRatio (x.negative != y.negative) (x.ratio.1 * y.ratio.2) (x.ratio.2 * y.ratio.1)

def neg (x : Binary64) : Binary64 :=
  ofSign (!x.negative) x.magnitude

def same (x y : Binary64) : Bool :=
  x = y || (x.isZero && y.isZero)

end Binary64

end SupervisorApi
