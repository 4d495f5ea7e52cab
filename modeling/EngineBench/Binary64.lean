/-!
# Binary floating-point numbers of 64 bits

A number is kept as what it denotes, never as machine words. The finite magnitudes are the
multiples of one *unit*, `2 ^ -1074`: a magnitude is `significand * 2 ^ shift` units with a
significand below `2 ^ 53`, and a shift above zero only where the significand is at least `2 ^ 52`.
With that the representation of every magnitude is unique, and all arithmetic is arithmetic of
natural numbers.

* `Magnitude.ofUnits` rounds an exact quotient to the nearest magnitude, ties to the even
  significand; `none` is overflow.
* `Magnitude.mul` and `Magnitude.div` are the exact result, rounded once.
-/

namespace EngineBench

/-- The quotient `n / d` rounded to the nearest integer, a tie to the even one. -/
def divNearest (n d : Nat) : Nat :=
  let q := n / d
  let r := n % d
  if 2 * r < d then q
  else if d < 2 * r then q + 1
  else if q % 2 = 0 then q
  else q + 1

theorem div_le_divNearest (n d : Nat) : n / d ≤ divNearest n d := by
  simp only [divNearest]
  split
  · exact Nat.le_refl _
  · split
    · exact Nat.le_succ _
    · split <;> omega

theorem divNearest_le (n d : Nat) : divNearest n d ≤ n / d + 1 := by
  simp only [divNearest]
  split
  · exact Nat.le_succ _
  · split
    · exact Nat.le_refl _
    · split <;> omega

/-- The number of units in one: a unit is `2 ^ -1074`, the least positive magnitude. -/
def unitsPerOne : Nat := 1 <<< 1074

theorem unitsPerOne_pos : 0 < unitsPerOne := by
  rw [unitsPerOne, Nat.one_shiftLeft]
  exact Nat.two_pow_pos 1074

/-- A finite magnitude, `significand * 2 ^ shift` units. -/
structure Magnitude where
  /-- At most 53 binary digits. -/
  significand : Nat
  /-- How often a unit is doubled. -/
  shift : Nat
  significand_lt : significand < 1 <<< 53
  normal : shift = 0 ∨ 1 <<< 52 ≤ significand
  shift_le : shift ≤ 2045
  deriving DecidableEq

namespace Magnitude

def units (m : Magnitude) : Nat := m.significand <<< m.shift

def zero : Magnitude := ⟨0, 0, by decide, Or.inl rfl, by decide⟩

instance : Inhabited Magnitude := ⟨zero⟩

/-- How often a unit has to be doubled so that `n / d` units have a significand of 53 digits. -/
def shiftFor (n d : Nat) : Nat := (n / d).log2 - 52

theorem div_shiftFor_lt (n d : Nat) : n / (d <<< shiftFor n d) < 1 <<< 53 := by
  rw [Nat.one_shiftLeft, Nat.shiftLeft_eq, ← Nat.div_div_eq_div_mul,
    Nat.div_lt_iff_lt_mul (Nat.two_pow_pos _), ← Nat.pow_add]
  refine Nat.lt_of_lt_of_le Nat.lt_log2_self (Nat.pow_le_pow_right (by decide) ?_)
  simp only [shiftFor]
  omega

theorem le_div_shiftFor (n d : Nat) (h : shiftFor n d ≠ 0) :
    1 <<< 52 ≤ n / (d <<< shiftFor n d) := by
  rw [Nat.one_shiftLeft, Nat.shiftLeft_eq, ← Nat.div_div_eq_div_mul,
    Nat.le_div_iff_mul_le (Nat.two_pow_pos _), ← Nat.pow_add]
  have hne : n / d ≠ 0 := by
    intro h0
    simp [shiftFor, h0] at h
  refine Nat.le_trans (Nat.pow_le_pow_right (by decide) ?_) (Nat.log2_self_le hne)
  simp only [shiftFor] at h ⊢
  omega

/-- The magnitude nearest to `n / d` units, a tie to the even significand; `none` if it is beyond
the largest magnitude. -/
def ofUnits (n d : Nat) : Option Magnitude :=
  let shift := shiftFor n d
  let significand := divNearest n (d <<< shift)
  if hshift : shift + 1 ≤ 2045 ∨ (shift ≤ 2045 ∧ significand < 1 <<< 53) then
    if hlt : significand < 1 <<< 53 then
      some ⟨significand, shift, hlt, by
        by_cases h : shift = 0
        · exact Or.inl h
        · exact Or.inr (Nat.le_trans (le_div_shiftFor n d h) (div_le_divNearest ..)), by omega⟩
    else some ⟨1 <<< 52, shift + 1, by decide, Or.inr (Nat.le_refl _), by omega⟩
  else none

def ofRatio (n d : Nat) : Option Magnitude := ofUnits (n * unitsPerOne) d

/-- The product, rounded once. -/
def mul (a b : Magnitude) : Option Magnitude := ofUnits (a.units * b.units) unitsPerOne

/-- The quotient by a magnitude above zero, rounded once. -/
def div (a b : Magnitude) : Option Magnitude := ofUnits (a.units * unitsPerOne) b.units

end Magnitude

/-- A floating-point number. Zero has two signs; there is one value for everything that is not a
number. -/
inductive Binary64 where
  | finite (negative : Bool) (magnitude : Magnitude)
  | infinite (negative : Bool)
  | nan
  deriving DecidableEq

namespace Binary64

instance : Inhabited Binary64 := ⟨.finite false .zero⟩

/-- The number with a sign and the magnitude nearest to `n / d`. -/
def ofRatio (negative : Bool) (n d : Nat) : Binary64 :=
  match Magnitude.ofRatio n d with
  | some m => .finite negative m
  | none => .infinite negative

/-- Above zero, infinity included. -/
def isPositive : Binary64 → Bool
  | .finite false m => 0 < m.significand
  | .infinite false => true
  | _ => false

/-- Below zero, infinity included; the negative zero is not. -/
def isNegative : Binary64 → Bool
  | .finite true m => 0 < m.significand
  | .infinite true => true
  | _ => false

def isFinite : Binary64 → Bool
  | .finite .. => true
  | _ => false

/-- At most one. Nothing holds of `nan`. -/
def isAtMostOne : Binary64 → Bool
  | .finite false m => m.units ≤ unitsPerOne
  | .finite true _ => true
  | .infinite negative => negative
  | .nan => false

/-- The product with the ratio `n / d` of two whole numbers, rounded once. -/
def scale (x : Binary64) (n d : Nat) : Binary64 :=
  match x with
  | .finite negative m =>
    match Magnitude.ofUnits (m.units * n) d with
    | some m => .finite negative m
    | none => .infinite negative
  | x => x

end Binary64

end EngineBench
