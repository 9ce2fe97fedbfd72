import SupervisorApi.Text.Digits
import SupervisorApi.Text.Utf8

set_option autoImplicit false

namespace SupervisorApi

namespace Percent

def isUnreserved (b : UInt8) : Bool :=
  let n := b.toNat
  (48 ≤ n && n ≤ 57) || (65 ≤ n && n ≤ 90) || (97 ≤ n && n ≤ 122)
    || n = 0x2D || n = 0x2E || n = 0x5F || n = 0x7E

def digit (d : Nat) : Char :=
  Char.ofNat (if d < 10 then 48 + d else 55 + d)

def encodeByte (b : UInt8) : List Char :=
  if isUnreserved b then [Char.ofNat b.toNat]
  else ['%', digit (b.toNat / 16), digit (b.toNat % 16)]

def encodeBytes (bs : Bytes) : List Char :=
  bs.flatMap encodeByte

def encode (s : String) : String :=
  String.ofList (encodeBytes (Utf8.encode s))

def value? (b : UInt8) : Option Nat :=
  Digits.hexValue? (Char.ofNat b.toNat)

def byte? (high low : UInt8) : Option UInt8 := do
  let a ← value? high
  let b ← value? low
  return UInt8.ofNat (16 * a + b)

def sign : UInt8 := 0x25

def decode : Bytes → Bytes
  | [] => []
  | [a] => [a]
  | [a, b] => [a, b]
  | a :: b :: c :: rest =>
    if a = sign then
      match byte? b c with
      | some x => x :: decode rest
      | none => a :: decode (b :: c :: rest)
    else a :: decode (b :: c :: rest)

theorem decode_of_not_mem {bs : Bytes} (h : sign ∉ bs) : decode bs = bs := by
  fun_induction decode bs with
  | case1 | case2 | case3 => rfl
  | case4 b c rest x hx => simp at h
  | case5 b c rest hx => simp at h
  | case6 a b c rest ha ih => rw [ih fun m => h (List.mem_cons_of_mem _ m)]

end Percent

end SupervisorApi
