import SupervisorApi.Text.Utf8

set_option autoImplicit false

namespace SupervisorApi

inductive DecodeError where
  | mismatched
  | missing (name : String)
  | repeated (name : String)
  | unknownVariant (value : String) (known : List String)
  | badIpv4
  | badIpv6
  | badTimestamp
  | badUuid
  | badKeyword (quoted : String)
  | emptySelection
  deriving DecidableEq, Repr

namespace DecodeError

def named (name : String) : String :=
  "\x60" ++ name ++ "\x60"

def expected : List String → String
  | [] => "there are no variants"
  | [a] => "expected " ++ named a
  | [a, b] => "expected " ++ named a ++ " or " ++ named b
  | names => "expected one of " ++ ", ".intercalate (names.map named)

def emptySelectionMessage : String :=
  "At least one of addons, folders, or homeassistant must have a value"

def message : DecodeError → String
  | .mismatched => "mismatched value"
  | .missing name => "missing field " ++ named name
  | .repeated name => "duplicate field " ++ named name
  | .unknownVariant v known => "unknown variant " ++ named v ++ ", " ++ expected known
  | .badIpv4 => "invalid IPv4 address syntax"
  | .badIpv6 => "invalid IPv6 address syntax"
  | .badTimestamp => "invalid timestamp"
  | .badUuid => "UUID parsing failed"
  | .badKeyword quoted =>
    "invalid value: string " ++ quoted ++ ", expected \"all\" or a list of add-on slugs"
  | .emptySelection => emptySelectionMessage

end DecodeError

end SupervisorApi
