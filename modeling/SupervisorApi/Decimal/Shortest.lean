import SupervisorApi.Decimal.Binary64

/-!
The shortest decimal that reads back: the fewest digits whose value rounds to the given pattern,
and of those the nearest. A pattern stands for the interval of reals that round to it, ends
included when its significand is even.
-/

set_option autoImplicit false

namespace SupervisorApi

namespace Binary64

-- Digits of a positive decimal `0.d₁d₂… · 10 ^ point`, the first and the last not zero.
structure Digits where
  digits : List Nat
  point : Int
  deriving DecidableEq, Repr

-- The half way marks below and above, as numerators over `4 · ratio.2`.
def marks (x : Binary64) : Nat × Nat × Nat :=
  let unit := Nat.pow 2 x.exponent.toNat
  let low := if x.significand = Nat.pow 2 52 ∧ 1 < x.biased then unit else 2 * unit
  (4 * x.ratio.1 - low, 4 * x.ratio.1, 4 * x.ratio.1 + 2 * unit)

def holds (x : Binary64) (num den : Nat) : Bool :=
  let (low, _, high) := x.marks
  let a := low * den
  let b := num * (4 * x.ratio.2)
  let c := high * den
  if x.significand % 2 = 0 then a ≤ b && b ≤ c else a < b && b < c

-- An exponent that `10 ^ k ≤ num / den` does not exceed: `log₁₀ 2` is a little over 1233/4096.
def decimalBound (num den : Nat) : Int :=
  (binaryOrder num den + 1) * 1233 / 4096 + 1

def decimalOrder (num den : Nat) : Nat → Int → Int
  | 0, k => k
  | n + 1, k =>
    if den * Nat.pow 10 k.toNat ≤ num * Nat.pow 10 (-k).toNat then k
    else decimalOrder num den n (k - 1)

/-- The neighbours on the grid of `10 ^ g`, the nearer first when both round back. -/
def gridPoint (x : Binary64) (g : Int) : Option Nat :=
  let (num, den) := x.ratio
  let up := Nat.pow 10 g.toNat
  let down := Nat.pow 10 (-g).toNat
  let low := num * down / (den * up)
  let rest := num * down % (den * up)
  let fits := fun n => x.holds (n * up) down
  let lowFirst := decide (2 * rest < den * up) || (decide (2 * rest = den * up) && low % 2 == 0)
  match fits low, fits (low + 1) with
  | true, true => some (if lowFirst then low else low + 1)
  | true, false => some low
  | false, true => some (low + 1)
  | false, false => none

def firstGrid (x : Binary64) : Nat → Int → Option (Nat × Int)
  | 0, _ => none
  | n + 1, g =>
    match x.gridPoint g with
    | some m => if m = 0 then firstGrid x n (g - 1) else some (m, g)
    | none => firstGrid x n (g - 1)

def decimal (n : Nat) : List Nat :=
  (Nat.toDigits 10 n).map fun c => c.toNat - 48

def dropZeros (ds : List Nat) : List Nat :=
  (ds.reverse.dropWhile (· == 0)).reverse

def shortest (x : Binary64) : Digits :=
  let (num, den) := x.ratio
  let order := decimalOrder num den 640 (decimalBound num den)
  match x.firstGrid 18 order with
  | some (m, g) =>
    let ds := decimal m
    ⟨dropZeros ds, g + ds.length⟩
  | none => ⟨[], 0⟩

end Binary64

end SupervisorApi
