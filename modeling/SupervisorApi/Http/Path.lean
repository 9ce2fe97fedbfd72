import SupervisorApi.Error.Basic
import SupervisorApi.Text.Percent
import SupervisorApi.Text.Split

set_option autoImplicit false

namespace SupervisorApi

namespace Path

def slash : UInt8 := 0x2F

def backslash : UInt8 := 0x5C

def split (path : Bytes) : List Bytes :=
  splitAt slash path

def withoutSlash : Bytes → Bytes
  | [] => []
  | b :: rest => if b = slash then rest else b :: rest

def withoutSlashes (bs : Bytes) : Bytes :=
  bs.dropWhile (· = slash)

def isForbidden (b : UInt8) : Bool :=
  b = 0x3F || b = 0x23 || b = backslash

def isSeparator (b : UInt8) : Bool :=
  b = slash || b = backslash

def isDots (segment : Bytes) : Bool :=
  segment = [0x2E] || segment = [0x2E, 0x2E]

def isSafeSegment (segment : Bytes) : Bool :=
  let decoded := Percent.decode segment
  (Utf8.decode? decoded).isSome && !isDots decoded && !decoded.any isSeparator

def isSafe (path : Bytes) : Bool :=
  !path.any isForbidden && (split (withoutSlash path)).all isSafeSegment

def guard (path : String) : Except ApiError Unit :=
  if isSafe (Utf8.encode path) then .ok () else .error (.invalidPath path)

end Path

end SupervisorApi
