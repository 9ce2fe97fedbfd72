import SupervisorApi.Text.Digits

set_option autoImplicit false

namespace SupervisorApi

structure Uuid where
  digits : List (Fin 16)
  complete : digits.length = 32
  deriving DecidableEq, Repr

namespace Uuid

def digit? (c : Char) : Option (Fin 16) :=
  (Digits.hexValue? c).map (Fin.ofNat 16)

def ofDigits (ds : List (Fin 16)) : Option Uuid :=
  if h : ds.length = 32 then some ⟨ds, h⟩ else none

def zero : Uuid :=
  ⟨List.replicate 32 0, rfl⟩

def parse (s : String) : Option Uuid :=
  (s.toList.mapM digit?).bind ofDigits

def text (u : Uuid) : List Char :=
  u.digits.map fun d => Digits.hexChar d.val

def render (u : Uuid) : String :=
  String.ofList u.text

def parseHyphened (s : String) : Option Uuid :=
  let cs := s.toList
  if cs.length = 36 ∧ [8, 13, 18, 23].all (fun i => cs[i]? = some '-') then
    parse (String.ofList (cs.filter (· ≠ '-')))
  else parse s

end Uuid

end SupervisorApi
