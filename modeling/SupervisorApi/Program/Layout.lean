import SupervisorApi.Decimal.Fixed
import SupervisorApi.Model.Choice
import SupervisorApi.Timestamp.Printer

set_option autoImplicit false

namespace SupervisorApi

namespace Layout

def left (width : Nat) (s : String) : String :=
  String.ofList (s.toList ++ List.replicate (width - s.toList.length) ' ')

def right (width : Nat) (s : String) : String :=
  String.ofList (List.replicate (width - s.toList.length) ' ' ++ s.toList)

def capital (c : Char) : Char :=
  if 'a' ≤ c ∧ c ≤ 'z' then Char.ofNat (c.toNat - 32) else c

def title (c : Choice) (v : c.Value) : String :=
  match (c.name v).toList with
  | [] => ""
  | first :: rest => String.ofList (capital first :: rest)

def orDash (s : Option String) : String :=
  s.getD "-"

def minute (t : Timestamp) : String :=
  let c := t.clock
  String.ofList (Timestamp.yearText c.year ++ '-' :: Digits.fixed 2 c.month ++ '-'
    :: Digits.fixed 2 c.day ++ ' ' :: Digits.fixed 2 c.hour ++ ':' :: Digits.fixed 2 c.minute)

end Layout

end SupervisorApi
