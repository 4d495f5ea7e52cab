import EngineBench.Decimal.Literal

/-!
# The shortest decimal that reads back

Between two neighbouring magnitudes lies a midpoint; the decimals that are read as a magnitude `m`
are those between the midpoints on either side of it, the midpoints themselves included iff the
significand of `m` is even. `Magnitude.shortest` looks for the coarsest grid of powers of ten with
a point in that interval and takes the point; of two points the one nearer to `m`. An exact tie is
left to the format that asks, as a `Tie`.

All quantities are whole numbers of *quarter units*, so that the midpoints are whole too.
-/

namespace EngineBench

/-- Which of two equally near decimals is taken. -/
inductive Tie where
  /-- The one with the larger magnitude. -/
  | away
  /-- The one whose last digit is even. -/
  | even
  deriving DecidableEq, Repr

namespace Magnitude

/-- The magnitude in quarter units. -/
def quarters (m : Magnitude) : Nat := (4 * m.significand) <<< m.shift

/-- The midpoint above, in quarter units. -/
def upper (m : Magnitude) : Nat := (4 * m.significand + 2) <<< m.shift

/-- The midpoint below, in quarter units. Below a power of two the neighbour is twice as near. -/
def lower (m : Magnitude) : Nat :=
  if m.significand = 1 <<< 52 ∧ m.shift ≠ 0 then (4 * m.significand - 1) <<< m.shift
  else (4 * m.significand - 2) <<< m.shift

/-- Whether `p / q` quarter units are read as this magnitude. -/
def covers (m : Magnitude) (p q : Nat) : Bool :=
  if m.significand % 2 = 0 then m.lower * q ≤ p && p ≤ m.upper * q
  else m.lower * q < p && p < m.upper * q

/-- The multiple of `10 ^ e` that is read as this magnitude, if there is one; of two the nearer. -/
def onGrid? (tie : Tie) (m : Magnitude) (e : Int) : Option Nat :=
  let up := Decimal.powerOfTen (-e).toNat
  let step := 4 * unitsPerOne * Decimal.powerOfTen e.toNat
  let value := m.quarters * up
  let below := value / step
  let past := value % step
  match m.covers (below * step) up, m.covers ((below + 1) * step) up with
  | true, true =>
    if 2 * past < step then some below
    else if step < 2 * past then some (below + 1)
    else if tie = .even ∧ below % 2 = 0 then some below
    else some (below + 1)
  | true, false => some below
  | false, true => some (below + 1)
  | false, false => none

/-- Tries `n + 1` grids, from `10 ^ e` to finer ones. -/
def searchGrids (tie : Tie) (m : Magnitude) : Nat → Int → Option Decimal
  | 0, e => (m.onGrid? tie e).map (⟨·, e⟩)
  | n + 1, e =>
    match m.onGrid? tie e with
    | some d => some ⟨d, e⟩
    | none => searchGrids tie m n (e - 1)

/-- The decimal with the fewest digits that is read as this magnitude. The largest magnitude is
below `10 ^ 309`, and every interval is wider than `10 ^ -324`, so that the grids from `10 ^ 308`
to `10 ^ -324` are enough. -/
def shortest (tie : Tie) (m : Magnitude) : Decimal :=
  if m.significand = 0 then ⟨0, 0⟩ else (m.searchGrids tie 632 308).getD ⟨0, 0⟩

end Magnitude

end EngineBench
