set_option autoImplicit false

namespace SupervisorApi

namespace Digits

def value? (c : Char) : Option Nat :=
  if '0' ≤ c ∧ c ≤ '9' then some (c.toNat - 48) else none

def char (d : Nat) : Char :=
  Char.ofNat (48 + d)

def take : Nat → List Char → List Nat × List Char
  | 0, s => ([], s)
  | _ + 1, [] => ([], [])
  | n + 1, c :: s =>
    match value? c with
    | some d => let (ds, r) := take n s; (d :: ds, r)
    | none => ([], c :: s)

def number (ds : List Nat) : Nat :=
  ds.foldl (fun n d => 10 * n + d) 0

def fixed : Nat → Nat → List Char
  | 0, _ => []
  | width + 1, n => fixed width (n / 10) ++ [char (n % 10)]

def atLeast (width n : Nat) : List Char :=
  let ds := Nat.toDigits 10 n
  List.replicate (width - ds.length) '0' ++ ds

def hexValue? (c : Char) : Option Nat :=
  if '0' ≤ c ∧ c ≤ '9' then some (c.toNat - 48)
  else if 'a' ≤ c ∧ c ≤ 'f' then some (c.toNat - 87)
  else if 'A' ≤ c ∧ c ≤ 'F' then some (c.toNat - 55)
  else none

def hexChar (d : Nat) : Char :=
  Char.ofNat (if d < 10 then 48 + d else 87 + d)

end Digits

end SupervisorApi
