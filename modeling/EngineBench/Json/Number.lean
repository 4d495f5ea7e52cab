import EngineBench.Decimal.Shortest
import EngineBench.Json

/-!
# Numbers in JSON

A numeral without point and exponent is a whole number if it fits 64 bits, and then also stands
for a floating-point number. A floating-point number is read by its *leading digits*: those that
make up a whole number below `2 ^ 64`, which is rounded once, and scaled by a power of ten, which
rounds once more. Digits behind them only count as places. So the reading is not always the
nearest number, but a numeral of at most fifteen digits whose power of ten is exact is read
correctly.

Floating-point numbers are written with the shortest digits that are read back correctly rounded,
positionally from `1e-5` to below `1e16` and with an exponent elsewhere.
-/

namespace EngineBench

namespace Numeral

/-- The significand of leading digits stays below this. -/
def significandBound : Nat := UInt64.size

/-- Reads the digits in front of the point on from `n`: the leading digits, and how many digits
follow them. -/
def leadingWhole (n : Nat) : List Char → Nat × Nat
  | [] => (n, 0)
  | c :: r =>
    let m := 10 * n + Decimal.digitValue c
    if m < significandBound then leadingWhole m r else (n, r.length + 1)

/-- Reads the digits behind the point on from `n`: the leading digits, and how many of them stand
behind the point. -/
def leadingFraction (n : Nat) : List Char → Nat × Nat
  | [] => (n, 0)
  | c :: r =>
    let m := 10 * n + Decimal.digitValue c
    if m < significandBound then
      let (k, places) := leadingFraction m r
      (k, places + 1)
    else (n, 0)

/-- The whole number that a numeral spells, without its sign. -/
def whole? (n : Numeral) : Option Nat :=
  match leadingWhole 0 n.whole with
  | (k, 0) => if n.isInteger then some k else none
  | _ => none

/-- The natural number that a numeral spells, if it is at most `bound`. The negative zero is no
whole number. -/
def nat? (bound : Nat) (n : Numeral) : Option Nat := do
  let k ← n.whole?
  if !n.negative && k ≤ bound then some k else none

/-- The integer that a numeral spells, if its size is below `bound`, or for a negative one at
most `bound`. -/
def int? (bound : Nat) (n : Numeral) : Option Int := do
  let k ← n.whole?
  if n.negative then if 0 < k ∧ k ≤ bound then some (-(k : Int)) else none
  else if k < bound then some k
  else none

/-- A power of ten as a floating-point number; exact up to the 22nd. -/
def power (k : Nat) : Magnitude := (Magnitude.ofRatio (Decimal.powerOfTen k) 1).getD .zero

/-- The largest power of ten that is a floating-point number. -/
def maxPower : Nat := 308

/-- A magnitude times a power of ten, rounded once, or twice for a power below the least. -/
def scale (m : Magnitude) (e : Int) : Option Magnitude :=
  if m.significand = 0 then some m
  else if 0 ≤ e then if e ≤ maxPower then m.mul (power e.toNat) else none
  else if -e ≤ maxPower then m.div (power (-e).toNat)
  else (m.div (power maxPower)).bind fun m => scale m (e + maxPower)
  termination_by (-e).toNat
  decreasing_by simp only [maxPower] at *; omega

/-- Exponents are held to 32 bits. -/
def maxExponent : Int := Int32.maxValue.toInt

/-- The magnitude that a numeral stands for; `none` is overflow. -/
def magnitude? (n : Numeral) : Option Magnitude :=
  let (k, dropped) := leadingWhole 0 n.whole
  let (k, places) := leadingFraction k n.fraction
  let e := n.exponent.getD 0
  if maxExponent < e then if k = 0 then some .zero else none
  else if e < -maxExponent then some .zero
  else
    (Magnitude.ofRatio k 1).bind fun m =>
      scale m (max (-maxExponent - 1) (min maxExponent ((dropped : Int) - places + e)))

/-- The floating-point number that a numeral stands for. -/
def float? (n : Numeral) : Option Binary64 := n.magnitude?.map (.finite n.negative)

/-- The numeral of a decimal: positional with at least one place from `1e-5` to below `1e16`, and
with one digit in front of the point and an exponent elsewhere. -/
def ofDecimal (negative : Bool) (x : Decimal) : Numeral :=
  let ds := Decimal.digitsOf x.digits
  let point : Int := ds.length + x.exponent
  if x.digits = 0 then ⟨negative, ['0'], ['0'], none⟩
  else if 0 ≤ x.exponent ∧ point ≤ 16 then
    ⟨negative, ds ++ List.replicate x.exponent.toNat '0', ['0'], none⟩
  else if 0 < point ∧ point ≤ 16 then
    ⟨negative, ds.take point.toNat, ds.drop point.toNat, none⟩
  else if -5 < point ∧ point ≤ 0 then
    ⟨negative, ['0'], List.replicate (-point).toNat '0' ++ ds, none⟩
  else ⟨negative, ds.take 1, ds.drop 1, some (point - 1)⟩

end Numeral

namespace Json

/-- A floating-point number; what is not finite is written as `null`. -/
def float : Binary64 → Json
  | .finite negative m => .number (.ofDecimal negative (m.shortest .even))
  | _ => .null

end Json

end EngineBench
