import SupervisorApi.Text.Digits

set_option autoImplicit false

namespace SupervisorApi

structure Duration where
  ofNanos ::
  nanos : Nat
  deriving DecidableEq, Repr

namespace Duration

def mk (millis : Nat) : Duration := ofNanos (1000000 * millis)

def millis (d : Duration) : Nat := d.nanos / 1000000

def ofSeconds (n : Nat) : Duration := mk (1000 * n)

def withoutTrailingZeros (digits : List Char) : List Char :=
  (digits.reverse.dropWhile (· = '0')).reverse

def fraction (digits : List Char) : List Char :=
  match withoutTrailingZeros digits with
  | [] => []
  | ds => '.' :: ds

inductive Scale where
  | seconds
  | millis
  | micros
  | nanos
  deriving DecidableEq, Repr

namespace Scale

def places : Scale → Nat
  | .seconds => 9
  | .millis => 6
  | .micros => 3
  | .nanos => 0

def name : Scale → String
  | .seconds => "s"
  | .millis => "ms"
  | .micros => "µs"
  | .nanos => "ns"

def ofNanos (n : Nat) : Scale :=
  if 1000000000 ≤ n then .seconds
  else if 1000000 ≤ n then .millis
  else if 1000 ≤ n then .micros
  else .nanos

end Scale

def text (d : Duration) : String :=
  let scale := Scale.ofNanos d.nanos
  let unit := Nat.pow 10 scale.places
  toString (d.nanos / unit)
    ++ String.ofList (fraction (Digits.fixed scale.places (d.nanos % unit))) ++ scale.name

def optionText : Option Duration → String
  | some d => "Some(" ++ d.text ++ ")"
  | none => "None"

end Duration

end SupervisorApi
