set_option autoImplicit false

namespace SupervisorApi

namespace LowerCase

def char (c : Char) : Char :=
  if 'A' ≤ c ∧ c ≤ 'Z' then Char.ofNat (c.toNat + 32) else c

def ofText (s : String) : String :=
  String.ofList (s.toList.map char)

end LowerCase

end SupervisorApi
