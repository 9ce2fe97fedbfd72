import SupervisorApi.Text.Digits
import SupervisorApi.Timestamp.Basic

set_option autoImplicit false

namespace SupervisorApi

namespace Timestamp

-- Years of up to four digits have no sign.
def yearText (year : Int) : List Char :=
  if 0 ≤ year ∧ year ≤ 9999 then Digits.fixed 4 year.toNat
  else (if year < 0 then '-' else '+') :: Digits.atLeast 4 year.natAbs

def fractionText (nano : Nat) : List Char :=
  if nano = 0 then [] else '.' :: Digits.fixed 6 (nano % Clock.billion / 1000)

def offsetText (minutes : Int) : List Char :=
  (if minutes < 0 then '-' else '+')
    :: (Digits.fixed 2 (minutes.natAbs / 60) ++ ':' :: Digits.fixed 2 (minutes.natAbs % 60))

def clockText (c : Clock) : List Char :=
  yearText c.year ++ '-' :: Digits.fixed 2 c.month ++ '-' :: Digits.fixed 2 c.day
    ++ 'T' :: Digits.fixed 2 c.hour ++ ':' :: Digits.fixed 2 c.minute
    ++ ':' :: Digits.fixed 2 (c.second + c.nano / Clock.billion)
    ++ fractionText c.nano ++ offsetText c.offsetMinutes

def render (t : Timestamp) : String :=
  String.ofList (clockText t.clock)

end Timestamp

end SupervisorApi
