import EngineBench.Binary64

/-!
# Reading decimal numbers

A `Decimal` is a whole number of powers of ten. `Decimal.toMagnitude` is the nearest magnitude of
64 bits; decimals far outside the range are decided from their size alone, so that no exponent,
however long, makes the reading slow. `Decimal.readFloat?` is the grammar of floating-point
options: a sign, then digits with at most one point, then an exponent; or `inf`, `infinity` or
`nan` in any case.
-/

namespace EngineBench

/-- The number `digits * 10 ^ exponent`. -/
structure Decimal where
  digits : Nat
  exponent : Int
  deriving DecidableEq, Inhabited

namespace Decimal

def digitValue (c : Char) : Nat := c.toNat - '0'.toNat

/-- The number that a list of digits spells, read on from `n`. -/
def ofDigits (n : Nat) (cs : List Char) : Nat :=
  cs.foldl (fun n c => 10 * n + digitValue c) n

/-- The longest run of digits at the start, and what follows it. -/
def spanDigits (cs : List Char) : List Char × List Char := cs.span Char.isDigit

/-- The digits of a number, most significant first; zero is the single digit `0`. -/
def digitsOf (n : Nat) : List Char := Nat.toDigits 10 n

def powerOfTen (k : Nat) : Nat := Nat.pow 10 k

/-- An upper bound of the number of decimal digits. -/
def digitBound (n : Nat) : Nat := n.log2 / 3 + 1

/-- The nearest magnitude; `none` is overflow. A decimal of at least `10 ^ 310` overflows, and one
below `10 ^ -330` is nearest to zero. -/
def toMagnitude (x : Decimal) : Option Magnitude :=
  if x.digits = 0 then some .zero
  else if 310 < x.exponent then none
  else if x.exponent + digitBound x.digits < -330 then some .zero
  else Magnitude.ofRatio (x.digits * powerOfTen x.exponent.toNat) (powerOfTen (-x.exponent).toNat)

def toBinary64 (negative : Bool) (x : Decimal) : Binary64 :=
  match x.toMagnitude with
  | some m => .finite negative m
  | none => .infinite negative

/-- A sign at the start: whether the number is negative, and the rest. -/
def readSign : List Char → Bool × List Char
  | '-' :: cs => (true, cs)
  | '+' :: cs => (false, cs)
  | cs => (false, cs)

/-- An exponent that takes up all of the text; the empty text is exponent zero. -/
def readExponent? : List Char → Option Int
  | [] => some 0
  | c :: cs =>
    if c = 'e' ∨ c = 'E' then
      let (negative, ds) := readSign cs
      if ds.isEmpty || !ds.all Char.isDigit then none
      else some (if negative then -(ofDigits 0 ds : Int) else ofDigits 0 ds)
    else none

/-- An unsigned decimal number: digits with at most one point and at least one digit, then an
exponent. -/
def read? (cs : List Char) : Option Decimal :=
  let (whole, rest) := spanDigits cs
  let (fraction, rest) :=
    match rest with
    | '.' :: r => spanDigits r
    | _ => ([], rest)
  if whole.isEmpty && fraction.isEmpty then none
  else
    (readExponent? rest).map fun e =>
      ⟨ofDigits (ofDigits 0 whole) fraction, e - fraction.length⟩

/-- A floating-point number as an option or a setting spells it. -/
def readFloat? (s : String) : Option Binary64 :=
  let (negative, cs) := readSign s.toList
  let word := cs.map Char.toLower
  if word = "inf".toList ∨ word = "infinity".toList then some (.infinite negative)
  else if word = "nan".toList then some .nan
  else (read? cs).map (toBinary64 negative)

/-- A whole number in decimal, with an optional sign, that is at most `bound`. A minus sign is
accepted only in front of zero. -/
def readWhole? (bound : Nat) (s : String) : Option Nat :=
  let (negative, ds) := readSign s.toList
  if ds.isEmpty || !ds.all Char.isDigit then none
  else
    let n := ofDigits 0 ds
    if n ≤ bound ∧ (negative = true → n = 0) then some n else none

end Decimal

end EngineBench
