import SupervisorApi.Text.Blank
import SupervisorApi.Text.Digits
import SupervisorApi.Timestamp.Basic

set_option autoImplicit false

namespace SupervisorApi

namespace Timestamp

def skipBlanks (s : List Char) : List Char :=
  s.dropWhile isBlank

def digits (width : Nat) (s : List Char) : Option (Nat × List Char) :=
  match Digits.take width s with
  | ([], _) => none
  | (ds, r) => some (Digits.number ds, r)

def small (s : List Char) : Option (Nat × List Char) :=
  digits 2 (skipBlanks s)

def expect (c : Char) : List Char → Option (List Char)
  | d :: s => if c = d then some s else none
  | [] => none

def separator (c : Char) (s : List Char) : Option (List Char) :=
  expect c (skipBlanks s)

-- A year without a sign has at most four digits.
def year (s : List Char) : Option (Int × List Char) :=
  match skipBlanks s with
  | '-' :: s => (digits s.length s).map fun (n, r) => (-(n : Int), r)
  | '+' :: s => (digits s.length s).map fun (n, r) => ((n : Int), r)
  | s => (digits 4 s).map fun (n, r) => ((n : Int), r)

def betweenDateAndTime : List Char → Option (List Char)
  | c :: s => if c = 'T' ∨ c = 't' ∨ c = ' ' then some s else none
  | [] => none

-- Nine digits count, the others are passed over.
def fraction : List Char → Option (Nat × List Char)
  | '.' :: s =>
    match Digits.take 9 s with
    | ([], _) => none
    | (ds, r) =>
      some (Digits.number ds * Nat.pow 10 (9 - ds.length),
        r.dropWhile fun c => (Digits.value? c).isSome)
  | s => some (0, s)

def sign : List Char → Option (Int × List Char)
  | '+' :: s => some (1, s)
  | '-' :: s => some (-1, s)
  | '\u2212' :: s => some (-1, s)
  | _ => none

def twoDigits : List Char → Option (Nat × List Char)
  | a :: b :: s => do
    let a ← Digits.value? a
    let b ← Digits.value? b
    return (10 * a + b, s)
  | _ => none

def isZulu : List Char → Bool
  | c :: _ => c = 'Z' || c = 'z'
  | [] => false

def isUniversal (s : List Char) : Bool :=
  (s.take 3).map Char.toUpper = ['U', 'T', 'C']

def offset (s : List Char) : Option (Int × List Char) :=
  if isUniversal s then some (0, s.drop 3)
  else if isZulu s then some (0, s.drop 1)
  else do
    let (sg, s) ← sign s
    let (h, s) ← twoDigits s
    let (m, s) ← twoDigits (s.dropWhile fun c => c = ':' || isBlank c)
    if m < 60 then some (sg * (60 * h + m : Nat), s) else none

-- Second 60 is a leap second: the one before it, a billion nanoseconds on.
def secondAndNano (second nano : Nat) : Nat × Nat :=
  if second = 60 then (59, Clock.billion + nano) else (second, nano)

def readClock (s : List Char) : Option Clock := do
  let (year, s) ← year s
  let (month, s) ← small (← separator '-' s)
  let (day, s) ← small (← separator '-' s)
  let s ← betweenDateAndTime s
  let (hour, s) ← small s
  let (minute, s) ← small (← separator ':' s)
  let (second, s) ← small (← separator ':' s)
  let (nano, s) ← fraction s
  let (offsetMinutes, s) ← offset (skipBlanks s)
  let (second, nano) := secondAndNano second nano
  if skipBlanks s = [] then
    some { year, month, day, hour, minute, second, nano, offsetMinutes }
  else none

def parse (s : String) : Option Timestamp :=
  (readClock s.toList).bind ofClock

end Timestamp

end SupervisorApi
