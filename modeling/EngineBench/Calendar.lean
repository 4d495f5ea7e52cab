import EngineBench.Decimal.Literal

/-!
# The calendar

Days of the Gregorian calendar, carried on before its introduction. `Day.next` and `Day.previous`
step over the ends of months and years.
-/

namespace EngineBench

namespace Calendar

def isLeapYear (year : Int) : Bool := (year % 4 = 0 && year % 100 ≠ 0) || year % 400 = 0

def daysIn (year : Int) (month : Nat) : Nat :=
  if month = 2 then if isLeapYear year then 29 else 28
  else if month = 4 ∨ month = 6 ∨ month = 9 ∨ month = 11 then 30
  else 31

def padded (width n : Nat) : String :=
  let ds := Decimal.digitsOf n
  String.ofList (List.replicate (width - ds.length) '0' ++ ds)

end Calendar

structure Day where
  year : Int
  month : Nat
  day : Nat
  deriving DecidableEq, Repr, Inhabited

namespace Day

def isValid (d : Day) : Bool :=
  1 ≤ d.month && d.month ≤ 12 && 1 ≤ d.day && d.day ≤ Calendar.daysIn d.year d.month

def next (d : Day) : Day :=
  if d.day < Calendar.daysIn d.year d.month then { d with day := d.day + 1 }
  else if d.month < 12 then ⟨d.year, d.month + 1, 1⟩
  else ⟨d.year + 1, 1, 1⟩

def previous (d : Day) : Day :=
  if 1 < d.day then { d with day := d.day - 1 }
  else if 1 < d.month then ⟨d.year, d.month - 1, Calendar.daysIn d.year (d.month - 1)⟩
  else ⟨d.year - 1, 12, 31⟩

end Day

end EngineBench
