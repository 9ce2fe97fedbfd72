/-!
Moments with the offset of the clock that showed them. The date and the time are those of that
clock; two timestamps are the same moment when they agree in universal time.
-/

set_option autoImplicit false

namespace SupervisorApi

namespace Calendar

def isLeapYear (year : Int) : Bool :=
  year % 4 = 0 && (year % 100 ≠ 0 || year % 400 = 0)

def daysInMonth (year : Int) (month : Nat) : Nat :=
  if month = 2 then (if isLeapYear year then 29 else 28)
  else if month = 4 ∨ month = 6 ∨ month = 9 ∨ month = 11 then 30
  else 31

def daysBeforeYear (year : Int) : Int :=
  let y := year - 1
  365 * y + y / 4 - y / 100 + y / 400

def daysBeforeMonth (year : Int) (month : Nat) : Nat :=
  (List.range (month - 1)).foldl (fun days m => days + daysInMonth year (m + 1)) 0

def dayNumber (year : Int) (month day : Nat) : Int :=
  daysBeforeYear year + daysBeforeMonth year month + day - 1 - 719162

def firstYear : Int := -262143
def lastYear : Int := 262142

end Calendar

-- A leap second is the 59th second of a minute with a billion nanoseconds or more.
structure Clock where
  year : Int
  month : Nat
  day : Nat
  hour : Nat
  minute : Nat
  second : Nat
  nano : Nat
  offsetMinutes : Int
  deriving DecidableEq, Repr

namespace Clock

open Calendar

def billion : Nat := 1000000000

def epoch (c : Clock) : Int :=
  dayNumber c.year c.month c.day * 86400 + (c.hour * 3600 + c.minute * 60 + c.second : Nat)
    - c.offsetMinutes * 60

def isDate (c : Clock) : Bool :=
  firstYear ≤ c.year && c.year ≤ lastYear && 1 ≤ c.month && c.month ≤ 12
    && 1 ≤ c.day && c.day ≤ daysInMonth c.year c.month

def isTime (c : Clock) : Bool :=
  c.hour < 24 && c.minute < 60 && c.second < 60
    && (c.nano < billion || (c.second = 59 && c.nano < 2 * billion))

def isOffset (c : Clock) : Bool :=
  -1440 < c.offsetMinutes && c.offsetMinutes < 1440

def isReachable (c : Clock) : Bool :=
  dayNumber firstYear 1 1 * 86400 ≤ c.epoch && c.epoch < (dayNumber lastYear 12 31 + 1) * 86400

def isValid (c : Clock) : Bool :=
  c.isDate && c.isTime && c.isOffset && c.isReachable

def cut (c : Clock) : Clock :=
  { c with nano := c.nano / 1000 * 1000 }

theorem isTime_cut {c : Clock} (h : c.isTime = true) : c.cut.isTime = true := by
  simp only [isTime, Bool.and_eq_true, Bool.or_eq_true, decide_eq_true_eq] at h ⊢
  simp only [cut, billion] at h ⊢
  omega

theorem isValid_cut {c : Clock} (h : c.isValid = true) : c.cut.isValid = true := by
  simp only [isValid, Bool.and_eq_true] at h ⊢
  exact ⟨⟨⟨h.1.1.1, isTime_cut h.1.1.2⟩, h.1.2⟩, h.2⟩

end Clock

structure Timestamp where
  clock : Clock
  valid : clock.isValid = true
  deriving DecidableEq

namespace Timestamp

def ofClock (c : Clock) : Option Timestamp :=
  if h : c.isValid = true then some ⟨c, h⟩ else none

def epoch (t : Timestamp) : Int := t.clock.epoch

def nano (t : Timestamp) : Nat := t.clock.nano

def offsetSeconds (t : Timestamp) : Int := t.clock.offsetMinutes * 60

def order (t u : Timestamp) : Ordering :=
  (compare t.epoch u.epoch).then (compare t.nano u.nano)

def sameMoment (t u : Timestamp) : Bool :=
  t.epoch = u.epoch && t.nano = u.nano

def cut (t : Timestamp) : Timestamp :=
  ⟨t.clock.cut, Clock.isValid_cut t.valid⟩

end Timestamp

end SupervisorApi
