import SupervisorApi.Text.LowerCase

set_option autoImplicit false

namespace SupervisorApi

structure Uri where
  scheme : Option String
  authority : String
  path : String
  query : Option String
  deriving DecidableEq, Repr

inductive UriFault where
  | tooLong
  | malformed
  deriving DecidableEq, Repr

def UriFault.message : UriFault → String
  | .tooLong => "uri too long"
  | .malformed => "invalid uri character"

namespace Uri

def isAlphanumeric (c : Char) : Bool :=
  ('0' ≤ c && c ≤ '9') || ('A' ≤ c && c ≤ 'Z') || ('a' ≤ c && c ≤ 'z')

def isSchemeChar (c : Char) : Bool :=
  isAlphanumeric c || c = '+' || c = '-' || c = '.'

def isAuthorityChar (c : Char) : Bool :=
  isAlphanumeric c
    || ['!', '$', '&', '\x27', '(', ')', '*', '+', ',', '-', '.', ':', ';', '=', '@', '[', ']', '_',
      '~'].contains c

def isPathChar (c : Char) : Bool :=
  let n := c.toNat
  0x80 ≤ n
    || (0x21 ≤ n && n ≤ 0x7E && !(['#', '<', '>', '?', '\x60'].contains c))

def isQueryChar (c : Char) : Bool :=
  let n := c.toNat
  0x80 ≤ n || (0x21 ≤ n && n ≤ 0x7E && !(['"', '#', '<', '>'].contains c))

def maxSchemeLength : Nat := 64

def splitScheme (s : List Char) : Option (List Char) × List Char :=
  let name := s.takeWhile isSchemeChar
  match s.drop name.length with
  | ':' :: '/' :: '/' :: rest => (some name, rest)
  | _ => (none, s)

def endsAuthority (c : Char) : Bool :=
  c = '/' || c = '?' || c = '#'

structure Scan where
  colons : Nat
  opened : Bool
  closed : Bool
  percent : Bool

namespace Scan

def start : Scan := ⟨0, false, false, false⟩

def maxColons : Nat := 8

def step (s : Scan) (c : Char) : Option Scan :=
  if c = ':' then
    if s.colons < maxColons then some { s with colons := s.colons + 1 } else none
  else if c = '[' then
    if s.percent || s.opened then none else some { s with opened := true }
  else if c = ']' then
    if !s.opened || s.closed then none
    else some { s with closed := true, colons := 0, percent := false }
  else if c = '@' then some { s with colons := 0, percent := false }
  else if c = '%' then some { s with percent := true }
  else if isAuthorityChar c then some s
  else none

def isGood (s : Scan) : Bool :=
  s.opened == s.closed && s.colons ≤ 1 && !s.percent

end Scan

def hostPart (authority : List Char) : List Char :=
  (authority.reverse.takeWhile (· ≠ '@')).reverse

def isAuthority (authority : List Char) : Bool :=
  match authority.foldlM Scan.step Scan.start with
  | some s => s.isGood && (hostPart authority).head?.any (· ≠ ':')
  | none => false

def splitQuery (s : List Char) : Option (List Char × Option (List Char)) :=
  let s := s.takeWhile (· ≠ '#')
  let path := s.takeWhile (· ≠ '?')
  let query := (s.drop path.length).tail?
  if path.all isPathChar && query.all (·.all isQueryChar) then some (path, query) else none

def absolute (scheme rest : List Char) : Option Uri := do
  let authority := rest.takeWhile fun c => !endsAuthority c
  if scheme.length ≤ maxSchemeLength ∧ isAuthority authority then
    let (path, query) ← splitQuery (rest.drop authority.length)
    some ⟨some (String.ofList scheme), String.ofList authority, String.ofList path,
      query.map String.ofList⟩
  else none

def relative (s : List Char) : Option Uri :=
  match s with
  | ['*'] => some ⟨none, "", "*", none⟩
  | '/' :: _ => do
    let (path, query) ← splitQuery s
    some ⟨none, "", String.ofList path, query.map String.ofList⟩
  | _ => if isAuthority s then some ⟨none, String.ofList s, "", none⟩ else none

def maxLength : Nat := 65534

def parse (text : String) : Except UriFault Uri :=
  if maxLength < text.utf8ByteSize then .error .tooLong
  else
    let read := match splitScheme text.toList with
      | (some scheme, rest) => absolute scheme rest
      | (none, s) => relative s
    match read with
    | some uri => .ok uri
    | none => .error .malformed

def target (u : Uri) : String :=
  (if u.path = "" then "/" else u.path) ++
    match u.query with
    | some q => "?" ++ q
    | none => ""

def schemeName (u : Uri) : Option String :=
  u.scheme.map LowerCase.ofText

def isSecure (u : Uri) : Bool :=
  u.schemeName = some "https"

def address (authority : String) : String :=
  String.ofList (hostPart authority.toList)

end Uri

end SupervisorApi
