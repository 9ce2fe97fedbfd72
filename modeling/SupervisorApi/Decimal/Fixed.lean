import SupervisorApi.Decimal.Binary64
import SupervisorApi.Text.Digits

set_option autoImplicit false

namespace SupervisorApi

namespace Binary64

def scaled (places : Nat) (x : Binary64) : Nat :=
  roundDiv (x.ratio.1 * Nat.pow 10 places) x.ratio.2

def fixed (places : Nat) (x : Binary64) : String :=
  let n := x.scaled places
  String.ofList ((if x.negative then ['-'] else []) ++ Nat.toDigits 10 (n / Nat.pow 10 places)
    ++ '.' :: Digits.fixed places (n % Nat.pow 10 places))

end Binary64

end SupervisorApi
