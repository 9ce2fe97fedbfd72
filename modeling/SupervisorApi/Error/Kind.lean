set_option autoImplicit false

namespace SupervisorApi

inductive ErrorKind where
  | generic
  | connection
  | timeout
  | badRequest
  | authentication
  | forbidden
  | notFound
  | serviceUnavailable
  | response
  | addonNotSupported
  | addonNotSupportedArchitecture
  | addonNotSupportedMachineType
  | addonNotSupportedVersion
  deriving DecidableEq, Repr

namespace ErrorKind

def all : List ErrorKind :=
  [.generic, .connection, .timeout, .badRequest, .authentication, .forbidden, .notFound,
    .serviceUnavailable, .response, .addonNotSupported, .addonNotSupportedArchitecture,
    .addonNotSupportedMachineType, .addonNotSupportedVersion]

def name : ErrorKind → String
  | .generic => "generic"
  | .connection => "connection"
  | .timeout => "timeout"
  | .badRequest => "bad_request"
  | .authentication => "authentication"
  | .forbidden => "forbidden"
  | .notFound => "not_found"
  | .serviceUnavailable => "service_unavailable"
  | .response => "response"
  | .addonNotSupported => "addon_not_supported"
  | .addonNotSupportedArchitecture => "addon_not_supported_architecture"
  | .addonNotSupportedMachineType => "addon_not_supported_machine_type"
  | .addonNotSupportedVersion => "addon_not_supported_home_assistant_version"

def ofName (s : String) : Option ErrorKind :=
  all.find? fun k => k.name = s

def parent : ErrorKind → Option ErrorKind
  | .generic => none
  | .addonNotSupportedArchitecture
  | .addonNotSupportedMachineType
  | .addonNotSupportedVersion => some .addonNotSupported
  | .addonNotSupported => some .badRequest
  | _ => some .generic

def rank : ErrorKind → Nat
  | .generic => 0
  | .addonNotSupportedArchitecture
  | .addonNotSupportedMachineType
  | .addonNotSupportedVersion => 3
  | .addonNotSupported => 2
  | _ => 1

theorem rank_parent {k p : ErrorKind} (h : k.parent = some p) : p.rank + 1 = k.rank := by
  cases k <;> simp only [parent, Option.some.injEq, reduceCtorEq] at h <;> subst h <;> rfl

def isA (k other : ErrorKind) : Bool :=
  k = other ||
    match h : k.parent with
    | some p =>
      have := rank_parent h
      p.isA other
    | none => false
termination_by k.rank

def ofStatus (status : Nat) : ErrorKind :=
  if status = 400 then .badRequest
  else if status = 401 then .authentication
  else if status = 403 then .forbidden
  else if status = 404 then .notFound
  else if status = 503 then .serviceUnavailable
  else .generic

def errorKey : ErrorKind → Option String
  | .addonNotSupportedArchitecture => some "addon_not_supported_architecture_error"
  | .addonNotSupportedMachineType => some "addon_not_supported_machine_type_error"
  | .addonNotSupportedVersion => some "addon_not_supported_home_assistant_version_error"
  | _ => none

def registered : List ErrorKind :=
  [.addonNotSupportedArchitecture, .addonNotSupportedMachineType, .addonNotSupportedVersion]

def familyKey : String := "addon_not_supported"

def ofErrorKey (key : String) : Option ErrorKind :=
  match registered.find? fun k => k.errorKey = some key with
  | some k => some k
  | none =>
    if familyKey.toList.isPrefixOf key.toList then some .addonNotSupported else none

end ErrorKind

end SupervisorApi
