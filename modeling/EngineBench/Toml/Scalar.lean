import EngineBench.Calendar
import EngineBench.Toml
import EngineBench.Toml.Text

/-!
# Numbers and dates of TOML

Integers of 64 bits in four bases, floating-point numbers, dates and times. Digits may be
separated by single underscores. A number that is too large is no value, except that a negative
floating-point number may be infinite.
-/

namespace EngineBench.Toml

/-! ## Numbers -/

/-- Digits of some kind, with single underscores between them. -/
def readDigits (isDigit : Char → Bool) : List Char → List Char × List Char
  | '_' :: c :: r =>
    if isDigit c then
      let (ds, r) := readDigits isDigit r
      (c :: ds, r)
    else ([], '_' :: c :: r)
  | c :: r =>
    if isDigit c then
      let (ds, r) := readDigits isDigit r
      (c :: ds, r)
    else ([], c :: r)
  | [] => ([], [])

/-- At least one digit of some kind; an underscore does not come first. -/
def readSomeDigits? (isDigit : Char → Bool) (cs : List Char) : Option (List Char × List Char) :=
  match cs with
  | c :: _ => if isDigit c then some (readDigits isDigit cs) else none
  | [] => none

def readBased? (base : Nat) (cs : List Char) : Option (Toml × List Char) := do
  let (ds, r) ← readSomeDigits? (fun c => (hexValue? c).any (· < base)) cs
  let n := ds.foldl (fun n c => base * n + (hexValue? c).getD 0) 0
  if n ≤ Int64.maxValue.toInt then some (.integer n, r) else none

/-- The whole part of a decimal number: a zero, or digits that do not start with one. -/
def readWhole? (cs : List Char) : Option (List Char × List Char) :=
  match cs with
  | '0' :: r => some (['0'], r)
  | _ => readSomeDigits? Char.isDigit cs

def readFraction? : List Char → Option (List Char × List Char)
  | '.' :: r => readSomeDigits? Char.isDigit r
  | r => some ([], r)

def readExponent? : List Char → Option (Option Int × List Char)
  | [] => some (none, [])
  | c :: cs =>
    if c = 'e' ∨ c = 'E' then do
      let (negative, r) := Decimal.readSign cs
      let (ds, r) ← readSomeDigits? Char.isDigit r
      let n : Int := Decimal.ofDigits 0 ds
      return (some (if negative then -n else n), r)
    else some (none, c :: cs)

def readDecimal? (negative : Bool) (cs : List Char) : Option (Toml × List Char) := do
  let (whole, r) ← readWhole? cs
  let (fraction, r) ← readFraction? r
  let (exponent, r) ← readExponent? r
  if fraction.isEmpty && exponent.isNone then
    let n : Int := Decimal.ofDigits 0 whole
    let i := if negative then -n else n
    if Int64.minValue.toInt ≤ i ∧ i ≤ Int64.maxValue.toInt then some (.integer i, r) else none
  else
    let digits := Decimal.ofDigits (Decimal.ofDigits 0 whole) fraction
    let x := Decimal.toBinary64 negative ⟨digits, exponent.getD 0 - fraction.length⟩
    if x = .infinite false then none else some (.float x, r)

/-- A number behind its sign that may be infinite or no number at all. -/
def readSigned? (negative : Bool) : List Char → Option (Toml × List Char)
  | 'i' :: 'n' :: 'f' :: r => some (.float (.infinite negative), r)
  | 'n' :: 'a' :: 'n' :: r => some (.float .nan, r)
  | cs => readDecimal? negative cs

/-- A number. Only without a sign it may be written in another base. -/
def readNumber? : List Char → Option (Toml × List Char)
  | '+' :: r => readSigned? false r
  | '-' :: r => readSigned? true r
  | '0' :: 'x' :: r => readBased? 16 r
  | '0' :: 'o' :: r => readBased? 8 r
  | '0' :: 'b' :: r => readBased? 2 r
  | r => readSigned? false r

/-! ## Dates and times -/

/-- As many digits as asked for, as a number from `lo` to `hi`. -/
def readField? (count lo hi : Nat) (cs : List Char) : Option (Nat × List Char) :=
  let ds := cs.take count
  if ds.length = count ∧ ds.all Char.isDigit then
    let n := Decimal.ofDigits 0 ds
    if lo ≤ n ∧ n ≤ hi then some (n, cs.drop count) else none
  else none

def expect? (c : Char) : List Char → Option (List Char)
  | d :: r => if c = d then some r else none
  | [] => none

def readDate? (cs : List Char) : Option (String × List Char) := do
  let (year, r) ← readField? 4 0 9999 cs
  let (month, r) ← readField? 2 1 12 (← expect? '-' r)
  let (day, r) ← readField? 2 1 (Calendar.daysIn year month) (← expect? '-' r)
  let two := Calendar.padded 2
  return (Calendar.padded 4 year ++ "-" ++ two month ++ "-" ++ two day, r)

/-- A fraction of a second, if a point follows. Nine digits count. -/
def readSubsecond? : List Char → Option (String × List Char)
  | '.' :: r =>
    let (ds, r) := Decimal.spanDigits r
    let significant := ((ds.take 9).reverse.dropWhile (· = '0')).reverse
    if ds.isEmpty then none
    else some (if significant.isEmpty then "" else String.ofList ('.' :: significant), r)
  | r => some ("", r)

/-- A time of the day. A minute may have a second 60. -/
def readTime? (cs : List Char) : Option (String × List Char) := do
  let (hour, r) ← readField? 2 0 23 cs
  let (minute, r) ← readField? 2 0 59 (← expect? ':' r)
  let (second, r) ← readField? 2 0 60 (← expect? ':' r)
  let (subsecond, r) ← readSubsecond? r
  let two := Calendar.padded 2
  return (two hour ++ ":" ++ two minute ++ ":" ++ two second ++ subsecond, r)

/-- The distance from universal time, if one follows. -/
def readOffset? : List Char → Option (String × List Char)
  | [] => some ("", [])
  | c :: cs =>
    if c = 'Z' ∨ c = 'z' then some ("Z", cs)
    else if c = '+' ∨ c = '-' then do
      let (hour, r) ← readField? 2 0 23 cs
      let (minute, r) ← readField? 2 0 59 (← expect? ':' r)
      let two := Calendar.padded 2
      return (String.singleton c ++ two hour ++ ":" ++ two minute, r)
    else some ("", c :: cs)

/-- The time behind a date, if one follows. A blank behind a date need not lead to a time. -/
def readTimeOfDate? (cs : List Char) : Option (String × List Char) :=
  let behind (r : List Char) : Option (String × List Char) := do
    let (time, r) ← readTime? r
    let (offset, r) ← readOffset? r
    return ("T" ++ time ++ offset, r)
  match cs with
  | 'T' :: r | 't' :: r => behind r
  | ' ' :: c :: r => if c.isDigit then behind (c :: r) else some ("", cs)
  | _ => some ("", cs)

def readMoment? (cs : List Char) : Option (Toml × List Char) :=
  match cs with
  | _ :: _ :: ':' :: _ => (readTime? cs).map fun (time, r) => (.moment time, r)
  | _ => do
    let (date, r) ← readDate? cs
    let (time, r) ← readTimeOfDate? r
    return (.moment (date ++ time), r)

/-- The text goes on like a date or a time: digits, and the first separator. -/
def startsMoment (cs : List Char) : Bool :=
  ((cs.take 4).all Char.isDigit && (cs.drop 4).head? = some '-') ||
    ((cs.take 2).all Char.isDigit && (cs.drop 2).head? = some ':')

def readScalar? (cs : List Char) : Option (Toml × List Char) :=
  match cs with
  | 't' :: 'r' :: 'u' :: 'e' :: r => some (.bool true, r)
  | 'f' :: 'a' :: 'l' :: 's' :: 'e' :: r => some (.bool false, r)
  | _ => if startsMoment cs then readMoment? cs else readNumber? cs

end EngineBench.Toml
