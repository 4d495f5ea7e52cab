import EngineBench.Calendar
import EngineBench.Text.Blank

/-!
# Timestamps

A moment of universal time to the nanosecond. It is written with as many groups of three digits of
the second as it needs. Reading is more liberal: numbers may be shorter, blanks may stand between
the parts, and a distance from universal time is taken off. A minute may have a second 60.
-/

namespace EngineBench

/-- A moment of universal time. -/
structure Timestamp where
  day : Day
  hour : Nat
  minute : Nat
  /-- Up to 60 in a minute with a leap second. -/
  second : Nat
  nanosecond : Nat
  deriving DecidableEq, Repr, Inhabited

namespace Timestamp

/-- The years that can be told. -/
def isTellable (year : Int) : Bool := -262143 ≤ year && year ≤ 262142

def isValid (t : Timestamp) : Bool :=
  t.day.isValid && isTellable t.day.year && t.hour ≤ 23 && t.minute ≤ 59 && t.second ≤ 60 &&
    t.nanosecond < 1000000000

/-! ## Writing -/

/-- A year: four digits, or a sign and at least four digits. -/
def yearText (year : Int) : String :=
  if 0 ≤ year ∧ year ≤ 9999 then Calendar.padded 4 year.natAbs
  else (if year < 0 then "-" else "+") ++ Calendar.padded 4 year.natAbs

/-- A part of a second in no, three, six or nine digits. -/
def subsecondText (nanosecond : Nat) : String :=
  if nanosecond = 0 then ""
  else if nanosecond % 1000000 = 0 then "." ++ Calendar.padded 3 (nanosecond / 1000000)
  else if nanosecond % 1000 = 0 then "." ++ Calendar.padded 6 (nanosecond / 1000)
  else "." ++ Calendar.padded 9 nanosecond

def text (t : Timestamp) : String :=
  yearText t.day.year ++ "-" ++ Calendar.padded 2 t.day.month ++ "-" ++
    Calendar.padded 2 t.day.day ++ "T" ++ Calendar.padded 2 t.hour ++ ":" ++
    Calendar.padded 2 t.minute ++ ":" ++ Calendar.padded 2 t.second ++
    subsecondText t.nanosecond ++ "Z"

/-! ## Reading -/

/-- A number of one to `count` digits behind blanks. -/
def readNumber? (count : Nat) (cs : List Char) : Option (Nat × List Char) :=
  let cs := Text.trimLeft cs
  let ds := (cs.take count).takeWhile Char.isDigit
  if ds.isEmpty then none else some (Decimal.ofDigits 0 ds, cs.drop ds.length)

/-- A year behind blanks: up to four digits, or a sign and any number of digits. -/
def readYear? (cs : List Char) : Option (Int × List Char) :=
  let signed (negative : Bool) (cs : List Char) : Option (Int × List Char) :=
    let (ds, r) := Decimal.spanDigits cs
    let n : Int := Decimal.ofDigits 0 ds
    if ds.isEmpty then none else some (if negative then -n else n, r)
  match Text.trimLeft cs with
  | '-' :: r => signed true r
  | '+' :: r => signed false r
  | r => (readNumber? 4 r).map fun (n, r) => (n, r)

def skipMark? (mark : Char) (cs : List Char) : Option (List Char) :=
  match Text.trimLeft cs with
  | c :: r => if c = mark then some r else none
  | [] => none

/-- A part of a second, if a point follows; nine digits count. -/
def readSubsecond? : List Char → Option (Nat × List Char)
  | '.' :: r =>
    let (ds, r) := Decimal.spanDigits r
    let known := ds.take 9
    let nanoseconds := Decimal.ofDigits 0 known * Decimal.powerOfTen (9 - known.length)
    if ds.isEmpty then none else some (nanoseconds, r)
  | r => some (0, r)

/-- Two digits as a number that is at most `bound`. -/
def readPair? (bound : Nat) : List Char → Option (Nat × List Char)
  | a :: b :: r =>
    let n := Decimal.ofDigits 0 [a, b]
    if a.isDigit && b.isDigit && n ≤ bound then some (n, r) else none
  | _ => none

/-- A distance from universal time in minutes: a letter or name for none, or a sign, hours, and
minutes behind any colons and blanks. -/
def readOffset? (cs : List Char) : Option (Int × List Char) :=
  let distance (negative : Bool) (cs : List Char) : Option (Int × List Char) := do
    let (hours, r) ← readPair? 23 cs
    let (minutes, r) ← readPair? 59 (r.dropWhile fun c => c = ':' || Text.isSpace c)
    let n : Int := hours * 60 + minutes
    return (if negative then -n else n, r)
  if (cs.take 3).map Char.toUpper = "UTC".toList then some (0, cs.drop 3)
  else
    match cs with
    | 'Z' :: r | 'z' :: r => some (0, r)
    | '+' :: r => distance false r
    | '-' :: r | '\u2212' :: r => distance true r
    | _ => none

/-- Takes a distance of less than a day off a time of the day, in minutes. -/
def takeOff (day : Day) (minuteOfDay : Nat) (offset : Int) : Day × Nat :=
  let m := (minuteOfDay : Int) - offset
  if m < 0 then (day.previous, (m + 1440).toNat)
  else if 1440 ≤ m then (day.next, (m - 1440).toNat)
  else (day, m.toNat)

def read? (s : String) : Option Timestamp := do
  let (year, r) ← readYear? s.toList
  let (month, r) ← readNumber? 2 (← skipMark? '-' r)
  let (day, r) ← readNumber? 2 (← skipMark? '-' r)
  let r ←
    match r with
    | 'T' :: r | 't' :: r | ' ' :: r => some r
    | _ => none
  let (hour, r) ← readNumber? 2 r
  let (minute, r) ← readNumber? 2 (← skipMark? ':' r)
  let (second, r) ← readNumber? 2 (← skipMark? ':' r)
  let (nanosecond, r) ← readSubsecond? r
  let (offset, r) ← readOffset? (Text.trimLeft r)
  let told : Timestamp := ⟨⟨year, month, day⟩, hour, minute, second, nanosecond⟩
  if !told.isValid || !(Text.trimLeft r).isEmpty then none
  else
    let (day, minuteOfDay) := takeOff told.day (hour * 60 + minute) offset
    let t : Timestamp := ⟨day, minuteOfDay / 60, minuteOfDay % 60, second, nanosecond⟩
    if t.isValid then some t else none

end Timestamp

end EngineBench
