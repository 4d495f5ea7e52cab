import EngineBench.Decimal.Literal
import EngineBench.Text.Alphabetic
import EngineBench.Text.Blank

/-!
# Durations

A duration is a number of nanoseconds. `Duration.parse` reads the duration texts of the settings:
a decimal number, then a unit that starts at the first alphabetic character; a bare number is a
number of seconds. The number passes through binary floating point: it is read correctly rounded,
scaled with one more rounding, and rounded to the nearest nanosecond, ties to even.
-/

namespace EngineBench

/-- A length of time. -/
structure Duration where
  nanoseconds : Nat
  deriving DecidableEq, Repr, Inhabited

namespace Duration

/-- Nanoseconds in a second. -/
def perSecond : Nat := 1000000000

def ofSeconds (n : Nat) : Duration := ⟨n * perSecond⟩

def ofMilliseconds (n : Nat) : Duration := ⟨n * 1000000⟩

def seconds (d : Duration) : Nat := d.nanoseconds / perSecond

def subsecond (d : Duration) : Nat := d.nanoseconds % perSecond

inductive Refusal where
  /-- Nothing but white space. -/
  | empty
  /-- What stands in front of the unit is not a decimal number. -/
  | notANumber (number : String)
  /-- The number is below zero or beyond the largest floating-point number. -/
  | outOfRange (text : String)
  /-- The unit is none of the known ones. -/
  | unknownUnit (unit : String)
  /-- A duration has fewer than `2 ^ 64` seconds. -/
  | tooLong (text : String)
  deriving DecidableEq, Repr

def Refusal.message : Refusal → String
  | .empty => "Empty duration string"
  | .notANumber number => "Invalid duration number: " ++ number
  | .outOfRange text => "Invalid duration: " ++ text
  | .unknownUnit unit => "Unknown duration unit: " ++ unit
  | .tooLong text =>
    "Invalid duration " ++ text ++
      ": cannot convert float seconds to Duration: value is either too big or NaN"

/-- The units a duration can be given in. -/
inductive Scale where
  | milliseconds
  | seconds
  | minutes
  deriving DecidableEq, Repr

/-- The unit that a text names, in any case of its letters. No unit means seconds. -/
def Scale.ofChars? (cs : List Char) : Option Scale :=
  let word := String.ofList (cs.map Char.toLower)
  if word = "ms" then some .milliseconds
  else if word = "s" ∨ word = "" then some .seconds
  else if word = "m" ∨ word = "min" then some .minutes
  else none

/-- The number of seconds in so many units, in one rounded step. -/
def Scale.toSeconds : Scale → Binary64 → Binary64
  | .milliseconds, x => x.scale 1 1000
  | .seconds, x => x
  | .minutes, x => x.scale 60 1

/-- A floating-point number of seconds to the nearest nanosecond, ties to even; `none` from
`2 ^ 64` seconds on. -/
def ofBinary64? : Binary64 → Option Duration
  | .finite _ m =>
    if m.units < UInt64.size * unitsPerOne then some ⟨divNearest (m.units * perSecond) unitsPerOne⟩
    else none
  | _ => none

def parse (s : String) : Except Refusal Duration :=
  let cs := Text.trim s.toList
  if cs.isEmpty then .error .empty
  else
    let number := cs.takeWhile fun c => !Text.isAlphabetic c
    let unit := cs.dropWhile fun c => !Text.isAlphabetic c
    match Decimal.readFloat? (String.ofList (Text.trim number)) with
    | none => .error (.notANumber (String.ofList number))
    | some x =>
      if !x.isFinite || x.isNegative then .error (.outOfRange (String.ofList cs))
      else
        match Scale.ofChars? unit with
        | none => .error (.unknownUnit (String.ofList unit))
        | some scale =>
          match ofBinary64? (scale.toSeconds x) with
          | some d => .ok d
          | none => .error (.tooLong (String.ofList cs))

end Duration

end EngineBench
