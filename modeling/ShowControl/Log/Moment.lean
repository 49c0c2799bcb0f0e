/-! Dates and times of day in the Gregorian calendar. -/

set_option autoImplicit false
namespace ShowControl

structure Moment where
  year : Nat
  month : Nat
  day : Nat
  hour : Nat
  minute : Nat
  second : Nat
  deriving DecidableEq, Repr

namespace Moment

def isLeap (year : Nat) : Bool := year % 4 = 0 && (year % 100 ≠ 0 || year % 400 = 0)

def daysOfMonths (year : Nat) : List Nat :=
  [31, if isLeap year then 29 else 28, 31, 30, 31, 30, 31, 31, 30, 31, 30, 31]

def daysBefore (year : Nat) : Nat :=
  let n := year - 1
  365 * n + n / 4 - n / 100 + n / 400

def dayNumber (m : Moment) : Nat :=
  ((daysOfMonths m.year).take (m.month - 1)).foldl (· + ·) (daysBefore m.year) + m.day

def lastDay : Nat := daysBefore 10000

def padded (width n : Nat) : String :=
  let digits := toString n
  String.ofList (List.replicate (width - digits.length) '0') ++ digits

/-- The moment in figures, from the year to the second. Later moments have later stamps, once the year
has four figures. -/
def stamp (m : Moment) : String :=
  "-".intercalate [toString m.year, padded 2 m.month, padded 2 m.day, padded 2 m.hour,
    padded 2 m.minute, padded 2 m.second]

end Moment

end ShowControl
