import Mathlib.Algebra.Order.Field.Basic
import Mathlib.Algebra.Order.Field.Power
import Mathlib.Data.Rat.Cast.Order
import Mathlib.Data.Rat.Floor
import Mathlib.Tactic.FieldSimp
import Mathlib.Tactic.Linarith
import Mathlib.Tactic.Positivity
import Mathlib.Tactic.Ring
import EngineBench.Decimal.Literal

/-!
# Rounding as a nearest point

The roundings of the model are algorithms on whole numbers. Here they are tied to what they mean on
rational numbers: a `Grid` is a set of numbers that can be rounded to, and `Grid.Nearest` is the
nearest of its points, the even one of two. On a grid a number has at most one nearest point.

* `divNearest_iff`: a quotient is rounded to the nearest whole number.
* `Magnitude.nearest_ofUnits`: a number of units is rounded to the nearest magnitude. Overflow is the
  point `2 ^ 1024`, which is nearer than every magnitude from the midpoint to the largest one on.
* `Decimal.toMagnitude_iff`: a decimal is read as the magnitude nearest to it, however large or
  small it is.
* `Magnitude.exists_nearest`: a number is at most half a step away from the magnitude it is rounded
  to, in every range of sizes.
-/

namespace EngineBench

/-- Numbers that can be rounded to, some of them even. Between two even ones lies another. -/
structure Grid (ι : Type) where
  point : ι → ℚ
  even : ι → Prop
  injective : Function.Injective point
  between : ∀ {i j : ι}, even i → even j → point i < point j →
    ∃ k, point i < point k ∧ point k < point j

namespace Grid

variable {ι : Type} {g : Grid ι} {x : ℚ} {i j : ι}

/-- No point is nearer to `x`, and if another one is just as near, this one is even. -/
structure Nearest (g : Grid ι) (x : ℚ) (i : ι) : Prop where
  closest : ∀ j, |x - g.point i| ≤ |x - g.point j|
  even : ∀ j, j ≠ i → |x - g.point j| = |x - g.point i| → g.even i

theorem Nearest.point_le (hi : g.Nearest x i) (hj : g.Nearest x j) : g.point j ≤ g.point i := by
  by_contra hlt
  rw [not_le] at hlt
  have hne : j ≠ i := by
    rintro rfl
    exact lt_irrefl _ hlt
  have htie : |x - g.point j| = |x - g.point i| := le_antisymm (hj.closest i) (hi.closest j)
  -- `x` is the midpoint of two even points, and what lies between them is nearer.
  obtain ⟨k, hik, hkj⟩ := g.between (hi.even j hne htie) (hj.even i hne.symm htie.symm) hlt
  have hmid : x - g.point i = g.point j - x := by
    rcases abs_eq_abs.mp htie with h | h
    · linarith
    · linarith
  have hcloser := hi.closest k
  rw [abs_of_nonneg (by linarith : 0 ≤ x - g.point i), le_abs] at hcloser
  rcases hcloser with h | h
  · linarith
  · linarith

theorem Nearest.unique (hi : g.Nearest x i) (hj : g.Nearest x j) : i = j :=
  g.injective (le_antisymm (hj.point_le hi) (hi.point_le hj))

/-- A point of the grid is its own nearest one. -/
theorem nearest_point (g : Grid ι) (i : ι) : g.Nearest (g.point i) i where
  closest j := by
    rw [sub_self, abs_zero]
    exact abs_nonneg _
  even j hne htie := by
    rw [sub_self, abs_zero, abs_eq_zero, sub_eq_zero] at htie
    exact absurd (g.injective htie).symm hne

/-- The whole numbers. -/
def whole : Grid ℕ where
  point n := n
  even n := n % 2 = 0
  injective := Nat.cast_injective
  between {i j} hi hj hlt := by
    have hlt : i < j := Nat.cast_lt.mp hlt
    refine ⟨i + 1, Nat.cast_lt.mpr (Nat.lt_succ_self i), Nat.cast_lt.mpr ?_⟩
    omega

/-- A whole number is nearest if it is at most a half away, and even if it is just a half away. -/
theorem nearest_whole {n : ℕ} (hle : |x - n| ≤ 1 / 2) (heven : |x - n| = 1 / 2 → n % 2 = 0) :
    whole.Nearest x n := by
  have hfar (k : ℕ) (hne : k ≠ n) : 1 / 2 ≤ |x - k| := by
    have hone : (1 : ℚ) ≤ |(k : ℚ) - n| := by
      have hint : (1 : ℤ) ≤ |(k : ℤ) - n| := Int.one_le_abs (by omega)
      exact_mod_cast hint
    have htriangle : |(k : ℚ) - n| ≤ |(k : ℚ) - x| + |x - n| := abs_sub_le _ _ _
    rw [abs_sub_comm (k : ℚ) x] at htriangle
    linarith
  constructor
  · intro k
    by_cases hk : k = n
    · rw [hk]
    · exact le_trans hle (hfar k hk)
  · intro k hne htie
    exact heven (le_antisymm hle (htie ▸ hfar k hne))

end Grid

open Grid

/-! ## Whole numbers -/

theorem nearest_divNearest {n d : ℕ} (hd : 0 < d) : whole.Nearest (n / d) (divNearest n d) := by
  have hdpos : (0 : ℚ) < d := Nat.cast_pos.mpr hd
  have hsplit : (n : ℚ) / d = (n / d : ℕ) + (n % d : ℕ) / (d : ℚ) := by
    have hdiv : (n : ℚ) = d * (n / d : ℕ) + (n % d : ℕ) := by
      exact_mod_cast (Nat.div_add_mod n d).symm
    field_simp
    linarith
  -- The rest decides which of the two neighbours is nearer.
  have hrest : 0 ≤ ((n % d : ℕ) : ℚ) / d := by positivity
  have hhalf : ((n % d : ℕ) : ℚ) / d = 2 * (n % d : ℕ) / d / 2 := by ring
  unfold divNearest
  dsimp only
  split
  next hlow =>
    have hlt : (2 * (n % d : ℕ) : ℚ) / d < 1 := by
      rw [div_lt_one hdpos]
      exact_mod_cast hlow
    have habs : |(n : ℚ) / d - (n / d : ℕ)| < 1 / 2 := by
      rw [hsplit, add_sub_cancel_left, abs_of_nonneg hrest, hhalf]
      linarith
    exact nearest_whole habs.le fun htie => absurd htie habs.ne
  next hlow =>
    have hge : 1 ≤ (2 * (n % d : ℕ) : ℚ) / d := by
      rw [one_le_div hdpos]
      exact_mod_cast Nat.le_of_not_lt hlow
    have hup : |(n : ℚ) / d - (n / d + 1 : ℕ)| = 1 - ((n % d : ℕ) : ℚ) / d := by
      have hlt : ((n % d : ℕ) : ℚ) / d < 1 := by
        rw [div_lt_one hdpos]
        exact_mod_cast Nat.mod_lt n hd
      rw [abs_sub_comm, abs_of_nonneg]
      · rw [hsplit]
        push_cast
        ring
      · rw [hsplit]
        push_cast
        linarith
    split
    next hhigh =>
      have hgt : 1 < (2 * (n % d : ℕ) : ℚ) / d := by
        rw [one_lt_div hdpos]
        exact_mod_cast hhigh
      have habs : |(n : ℚ) / d - (n / d + 1 : ℕ)| < 1 / 2 := by
        rw [hup, hhalf]
        linarith
      exact nearest_whole habs.le fun htie => absurd htie habs.ne
    next hhigh =>
      have heq : ((n % d : ℕ) : ℚ) / d = 1 / 2 := by
        have hone : (2 * (n % d : ℕ) : ℚ) / d = 1 := by
          rw [div_eq_one_iff_eq hdpos.ne']
          exact_mod_cast Nat.le_antisymm (Nat.le_of_not_lt hhigh) (Nat.le_of_not_lt hlow)
        rw [hhalf, hone]
      split
      next heven =>
        refine nearest_whole ?_ fun _ => heven
        rw [hsplit, add_sub_cancel_left, heq, abs_of_pos (by norm_num)]
      next hodd =>
        refine nearest_whole ?_ fun _ => by omega
        rw [hup, heq]
        norm_num

theorem divNearest_iff {n d k : ℕ} (hd : 0 < d) :
    divNearest n d = k ↔ whole.Nearest (n / d) k := by
  constructor
  · rintro rfl
    exact nearest_divNearest hd
  · intro h
    exact (nearest_divNearest hd).unique h

namespace Magnitude

/-! ## The grid of the magnitudes -/

def value (m : Magnitude) : ℚ := m.units / unitsPerOne

/-- The power of two beyond the largest magnitude, in units. -/
def overflowUnits : ℕ := 1 <<< 2098

/-- What a rounded number counts as, in units: overflow counts as `overflowUnits`. -/
def gridUnits : Option Magnitude → ℕ
  | some m => m.units
  | none => overflowUnits

/-- The significand of the number is even. -/
def IsEven : Option Magnitude → Prop
  | some m => m.significand % 2 = 0
  | none => True

theorem units_eq (m : Magnitude) : m.units = m.significand * 2 ^ m.shift := Nat.shiftLeft_eq ..

theorem significand_lt' (m : Magnitude) : m.significand < 2 ^ 53 := m.significand_lt

theorem le_significand {m : Magnitude} (h : m.shift ≠ 0) : 2 ^ 52 ≤ m.significand :=
  m.normal.resolve_left h

theorem overflowUnits_eq {k : ℕ} (hk : k ≤ 2045) :
    overflowUnits = 2 ^ 53 * 2 ^ (2045 - k) * 2 ^ k := by
  rw [overflowUnits, Nat.one_shiftLeft, ← Nat.pow_add, ← Nat.pow_add]
  congr 1
  omega

theorem units_lt_overflowUnits (m : Magnitude) : m.units < overflowUnits := by
  rw [units_eq, overflowUnits_eq m.shift_le]
  refine Nat.mul_lt_mul_of_pos_right ?_ (Nat.two_pow_pos _)
  exact Nat.lt_of_lt_of_le m.significand_lt' (Nat.le_mul_of_pos_right _ (Nat.two_pow_pos _))

/-- Seen from a shift, a number is a multiple of that step, or it has a smaller shift and lies below
all significands of the step. -/
theorem multiple_or_lt {k : ℕ} (hk : k ≤ 2045) (r : Option Magnitude) :
    (∃ j, gridUnits r = j * 2 ^ k) ∨ (k ≠ 0 ∧ gridUnits r < 2 ^ 52 * 2 ^ k) := by
  cases r with
  | none =>
    left
    exact ⟨2 ^ 53 * 2 ^ (2045 - k), overflowUnits_eq hk⟩
  | some m =>
    rw [gridUnits, units_eq]
    by_cases hle : k ≤ m.shift
    · left
      refine ⟨m.significand * 2 ^ (m.shift - k), ?_⟩
      rw [Nat.mul_assoc, ← Nat.pow_add, Nat.sub_add_cancel hle]
    · right
      refine ⟨by omega, ?_⟩
      have hpow : 2 ^ (m.shift + 1) ≤ 2 ^ k := Nat.pow_le_pow_right (by decide) (by omega)
      calc m.significand * 2 ^ m.shift
          < 2 ^ 53 * 2 ^ m.shift :=
            Nat.mul_lt_mul_of_pos_right m.significand_lt' (Nat.two_pow_pos _)
        _ = 2 ^ 52 * 2 ^ (m.shift + 1) := by rw [Nat.pow_succ 2 m.shift]; omega
        _ ≤ 2 ^ 52 * 2 ^ k := Nat.mul_le_mul_left _ hpow

/-- What is above a magnitude is above it by at least its own step. -/
theorem units_add_step_le {m : Magnitude} {r : Option Magnitude} (h : m.units < gridUnits r) :
    m.units + 2 ^ m.shift ≤ gridUnits r := by
  rcases multiple_or_lt m.shift_le r with ⟨j, hj⟩ | ⟨hshift, hlt⟩
  · rw [hj, units_eq] at h ⊢
    have hmul := Nat.mul_le_mul_right (2 ^ m.shift) (Nat.lt_of_mul_lt_mul_right h)
    rwa [Nat.succ_mul] at hmul
  · have hge := Nat.mul_le_mul_right (2 ^ m.shift) (le_significand hshift)
    rw [units_eq] at h
    omega

/-- Between a power of two and the magnitudes below it is a gap. -/
theorem units_add_le {m : Magnitude} {k : ℕ} (hk : k ≤ 2045) (h : m.units < 2 ^ 53 * 2 ^ k) :
    m.units + 2 ^ k ≤ 2 ^ 53 * 2 ^ k := by
  rcases multiple_or_lt hk (some m) with ⟨j, hj⟩ | ⟨-, hlt⟩
  · have hunits : m.units = j * 2 ^ k := hj
    rw [hunits] at h ⊢
    rw [← Nat.succ_mul]
    exact Nat.mul_le_mul_right _ (Nat.lt_of_mul_lt_mul_right h)
  · have hunits : m.units < 2 ^ 52 * 2 ^ k := hlt
    omega

/-- A significand that carries is the least one of the next shift. -/
theorem units_of_carry {m : Magnitude} {k : ℕ} (hsignificand : m.significand = 1 <<< 52)
    (hshift : m.shift = k + 1) : m.units = 2 ^ 53 * 2 ^ k := by
  rw [units_eq, hsignificand, hshift, Nat.one_shiftLeft, Nat.pow_succ 2 k]
  omega

/-- A number of at most 53 binary digits, doubled a number of times, is a magnitude. -/
theorem exists_units_eq {n k : ℕ} (hn : n ≤ 2 ^ 53) (hk : k ≤ 2044) :
    ∃ m : Magnitude, m.units = n * 2 ^ k := by
  rcases Nat.eq_or_lt_of_le hn with rfl | hlt
  · exact ⟨⟨1 <<< 52, k + 1, by decide, .inr (Nat.le_refl _), by omega⟩, units_of_carry rfl rfl⟩
  induction k generalizing n with
  | zero => exact ⟨⟨n, 0, hlt, .inl rfl, by decide⟩, units_eq _⟩
  | succ k ih =>
    by_cases hlow : n < 2 ^ 52
    · -- A short number has one more digit on the next finer step.
      obtain ⟨m, hm⟩ := ih (n := 2 * n) (by omega) (by omega) (by omega)
      refine ⟨m, ?_⟩
      rw [hm, Nat.pow_succ]
      ring
    · have hnormal : 1 <<< 52 ≤ n := by
        rw [Nat.one_shiftLeft]
        omega
      exact ⟨⟨n, k + 1, hlt, .inr hnormal, by omega⟩, units_eq _⟩

theorem units_lt_of_shift_lt {a b : Magnitude} (h : a.shift < b.shift) : a.units < b.units := by
  have hpow : 2 ^ (a.shift + 1) ≤ 2 ^ b.shift := Nat.pow_le_pow_right (by decide) h
  rw [units_eq, units_eq]
  calc a.significand * 2 ^ a.shift
      < 2 ^ 53 * 2 ^ a.shift := Nat.mul_lt_mul_of_pos_right a.significand_lt' (Nat.two_pow_pos _)
    _ = 2 ^ 52 * 2 ^ (a.shift + 1) := by rw [Nat.pow_succ 2 a.shift]; omega
    _ ≤ b.significand * 2 ^ b.shift := Nat.mul_le_mul (le_significand (by omega)) hpow

theorem units_injective {a b : Magnitude} (h : a.units = b.units) : a = b := by
  have hshift : a.shift = b.shift := by
    rcases Nat.lt_trichotomy a.shift b.shift with hlt | heq | hlt
    · exact absurd h (units_lt_of_shift_lt hlt).ne
    · exact heq
    · exact absurd h (units_lt_of_shift_lt hlt).ne'
  have hsignificand : a.significand = b.significand := by
    rw [units_eq, units_eq, hshift] at h
    exact Nat.eq_of_mul_eq_mul_right (Nat.two_pow_pos _) h
  cases a
  cases b
  cases hshift
  cases hsignificand
  rfl

theorem gridUnits_injective : Function.Injective gridUnits := by
  intro r r' h
  cases r with
  | none =>
    cases r' with
    | none => rfl
    | some m => exact absurd h (units_lt_overflowUnits m).ne'
  | some m =>
    cases r' with
    | none => exact absurd h (units_lt_overflowUnits m).ne
    | some m' => rw [units_injective h]

/-- The magnitude that follows an even one. -/
def next (m : Magnitude) (h : m.significand % 2 = 0) : Magnitude where
  significand := m.significand + 1
  shift := m.shift
  significand_lt := by
    have hmax := m.significand_lt'
    rw [Nat.one_shiftLeft]
    omega
  normal := m.normal.imp_right Nat.le_succ_of_le
  shift_le := m.shift_le

theorem units_next (m : Magnitude) (h : m.significand % 2 = 0) :
    (m.next h).units = m.units + 2 ^ m.shift := by
  rw [units_eq, units_eq, next, Nat.succ_mul]

/-- Between two even numbers lies the odd one that follows the lower of them. -/
theorem gridUnits_between {r r' : Option Magnitude} (heven : IsEven r) (heven' : IsEven r')
    (hlt : gridUnits r < gridUnits r') :
    ∃ k, gridUnits r < gridUnits k ∧ gridUnits k < gridUnits r' := by
  cases r with
  | none =>
    cases r' with
    | none => exact absurd hlt (Nat.lt_irrefl _)
    | some m => exact absurd hlt (Nat.lt_asymm (units_lt_overflowUnits m))
  | some m =>
    have hmod : m.significand % 2 = 0 := heven
    refine ⟨some (m.next hmod), ?_, Nat.lt_of_le_of_ne ?_ ?_⟩
    · show m.units < (m.next hmod).units
      rw [units_next]
      exact Nat.lt_add_of_pos_right (Nat.two_pow_pos _)
    · show (m.next hmod).units ≤ gridUnits r'
      rw [units_next]
      exact units_add_step_le hlt
    · intro heq
      rw [← gridUnits_injective heq] at heven'
      have hodd : (m.significand + 1) % 2 = 0 := heven'
      omega

theorem unitsPerOne_cast_pos : (0 : ℚ) < unitsPerOne := Nat.cast_pos.mpr unitsPerOne_pos

/-- The magnitudes, and overflow. -/
def grid : Grid (Option Magnitude) where
  point r := gridUnits r / unitsPerOne
  even := IsEven
  injective r r' h := by
    have hcast : (gridUnits r : ℚ) = gridUnits r' :=
      (div_left_inj' unitsPerOne_cast_pos.ne').mp h
    exact gridUnits_injective (Nat.cast_injective hcast)
  between heven heven' hlt := by
    rw [div_lt_div_iff_of_pos_right unitsPerOne_cast_pos, Nat.cast_lt] at hlt
    obtain ⟨k, hlow, hhigh⟩ := gridUnits_between heven heven' hlt
    refine ⟨k, ?_, ?_⟩
    · exact div_lt_div_of_pos_right (Nat.cast_lt.mpr hlow) unitsPerOne_cast_pos
    · exact div_lt_div_of_pos_right (Nat.cast_lt.mpr hhigh) unitsPerOne_cast_pos

theorem grid_point (r : Option Magnitude) : grid.point r = gridUnits r / unitsPerOne := rfl

@[simp] theorem grid_point_some (m : Magnitude) : grid.point (some m) = m.value := rfl

/-! ## Quotients -/

/-- What is nearest among the multiples of a step is nearest on the whole grid, if the number is not
below the significands of that step. -/
theorem nearest_of_step {y : ℚ} {k n : ℕ} {r : Option Magnitude} (hk : k ≤ 2045)
    (hy : k ≠ 0 → 2 ^ 52 ≤ y) (hn : whole.Nearest y n) (hunits : gridUnits r = n * 2 ^ k)
    (heven : n % 2 = 0 → IsEven r) : grid.Nearest (y * (2 ^ k / unitsPerOne)) r := by
  have hstep : (0 : ℚ) < 2 ^ k / unitsPerOne := div_pos (by positivity) unitsPerOne_cast_pos
  generalize hc : (2 : ℚ) ^ k / unitsPerOne = c at hstep ⊢
  have hpoint {r' : Option Magnitude} {j : ℕ} (h : gridUnits r' = j * 2 ^ k) :
      grid.point r' = j * c := by
    rw [grid_point, h, ← hc]
    push_cast
    ring
  have hdist (j : ℚ) : |y * c - j * c| = |y - j| * c := by
    rw [← sub_mul, abs_mul, abs_of_pos hstep]
  -- A number with a smaller shift lies below `2 ^ 52` steps, which is nearer.
  have hfar {r' : Option Magnitude} (hne : k ≠ 0) (h : gridUnits r' < 2 ^ 52 * 2 ^ k) :
      |y * c - grid.point r| < |y * c - grid.point r'| := by
    have hbelow : grid.point r' < 2 ^ 52 * c := by
      rw [← hc, ← mul_div_assoc]
      refine div_lt_div_of_pos_right ?_ unitsPerOne_cast_pos
      exact_mod_cast h
    have habove : 2 ^ 52 * c ≤ y * c := mul_le_mul_of_nonneg_right (hy hne) hstep.le
    have hnear : |y - n| ≤ y - 2 ^ 52 := by
      have hclosest : |y - n| ≤ |y - (2 ^ 52 : ℕ)| := hn.closest (2 ^ 52)
      rwa [Nat.cast_pow, Nat.cast_ofNat, abs_of_nonneg (sub_nonneg.mpr (hy hne))] at hclosest
    calc |y * c - grid.point r|
        = |y - n| * c := by rw [hpoint hunits, hdist]
      _ ≤ (y - 2 ^ 52) * c := mul_le_mul_of_nonneg_right hnear hstep.le
      _ < y * c - grid.point r' := by
        rw [sub_mul]
        linarith
      _ ≤ |y * c - grid.point r'| := le_abs_self _
  constructor
  · intro r'
    rcases multiple_or_lt hk r' with ⟨j, hj⟩ | ⟨hne, hlt⟩
    · rw [hpoint hunits, hpoint hj, hdist, hdist]
      exact mul_le_mul_of_nonneg_right (hn.closest j) hstep.le
    · exact (hfar hne hlt).le
  · intro r' hne htie
    rcases multiple_or_lt hk r' with ⟨j, hj⟩ | ⟨hk0, hlt⟩
    · rw [hpoint hunits, hpoint hj, hdist, hdist] at htie
      refine heven (hn.even j ?_ (mul_right_cancel₀ hstep.ne' htie))
      rintro rfl
      exact hne (gridUnits_injective (hj.trans hunits.symm))
    · exact absurd htie (hfar hk0 hlt).ne'

/-- A quotient that stays in range is rounded on its own step; an even step is an even number. -/
theorem ofUnits_spec {n d : ℕ} (hshift : shiftFor n d ≤ 2045) :
    gridUnits (ofUnits n d) = divNearest n (d <<< shiftFor n d) * 2 ^ shiftFor n d ∧
      (divNearest n (d <<< shiftFor n d) % 2 = 0 → IsEven (ofUnits n d)) := by
  have hle : divNearest n (d <<< shiftFor n d) ≤ 2 ^ 53 := by
    have hdiv := div_shiftFor_lt n d
    rw [Nat.one_shiftLeft] at hdiv
    exact Nat.le_trans (divNearest_le ..) hdiv
  unfold ofUnits
  dsimp only
  split
  next hrange =>
    split
    next hlt => exact ⟨units_eq _, id⟩
    next hcarry =>
      have hs := Nat.le_antisymm hle (Nat.le_of_not_lt hcarry)
      rw [hs]
      exact ⟨units_of_carry rfl rfl, fun _ => (by decide : (1 <<< 52) % 2 = 0)⟩
  next hrange =>
    rw [not_or, not_and, Nat.one_shiftLeft] at hrange
    have hs := Nat.le_antisymm hle (Nat.le_of_not_lt (hrange.2 hshift))
    have hmax : 2045 - shiftFor n d = 0 := by omega
    refine ⟨?_, fun _ => trivial⟩
    rw [gridUnits, overflowUnits_eq hshift, hs, hmax, Nat.pow_zero, Nat.mul_one]

theorem overflowUnits_mul_le {n d : ℕ} (hd : 0 < d) (hshift : ¬ shiftFor n d ≤ 2045) :
    overflowUnits * d ≤ n := by
  have hdiv := le_div_shiftFor n d (by omega)
  rw [Nat.one_shiftLeft, Nat.shiftLeft_eq,
    Nat.le_div_iff_mul_le (Nat.mul_pos hd (Nat.two_pow_pos _))] at hdiv
  have hunits : overflowUnits ≤ 2 ^ 52 * 2 ^ shiftFor n d := by
    have hle : 2098 ≤ 52 + shiftFor n d := by omega
    rw [overflowUnits, Nat.one_shiftLeft, ← Nat.pow_add _ 52]
    generalize 2098 = k at hle
    exact Nat.pow_le_pow_right (by decide) hle
  calc overflowUnits * d
      ≤ 2 ^ 52 * 2 ^ shiftFor n d * d := Nat.mul_le_mul_right d hunits
    _ = 2 ^ 52 * (d * 2 ^ shiftFor n d) := by ring
    _ ≤ n := hdiv

/-- Whatever is beyond all magnitudes overflows. -/
theorem nearest_none {x : ℚ} (h : grid.point none ≤ x) : grid.Nearest x none := by
  constructor
  · intro r
    cases r with
    | none => exact le_rfl
    | some m =>
      have hlt : grid.point (some m) < grid.point none :=
        div_lt_div_of_pos_right (Nat.cast_lt.mpr (units_lt_overflowUnits m)) unitsPerOne_cast_pos
      rw [abs_of_nonneg (by linarith), abs_of_nonneg (by linarith)]
      linarith
  · intro r hne htie
    exact trivial

theorem nearest_ofUnits {n d : ℕ} (hd : 0 < d) :
    grid.Nearest ((n : ℚ) / d / unitsPerOne) (ofUnits n d) := by
  by_cases hshift : shiftFor n d ≤ 2045
  · have hstep : 0 < d <<< shiftFor n d := by
      rw [Nat.shiftLeft_eq]
      exact Nat.mul_pos hd (Nat.two_pow_pos _)
    have hlow : shiftFor n d ≠ 0 → (2 ^ 52 : ℚ) ≤ n / (d <<< shiftFor n d : ℕ) := by
      intro h
      have hdiv := le_div_shiftFor n d h
      rw [Nat.one_shiftLeft, Nat.le_div_iff_mul_le hstep] at hdiv
      rw [le_div_iff₀ (Nat.cast_pos.mpr hstep)]
      exact_mod_cast hdiv
    have hscale : (n : ℚ) / d / unitsPerOne =
        n / (d <<< shiftFor n d : ℕ) * (2 ^ shiftFor n d / unitsPerOne) := by
      rw [Nat.shiftLeft_eq]
      push_cast
      field_simp
    obtain ⟨hunits, heven⟩ := ofUnits_spec hshift
    rw [hscale]
    exact nearest_of_step hshift hlow (nearest_divNearest hstep) hunits heven
  · have hnone : ofUnits n d = none := by
      unfold ofUnits
      exact dif_neg (by omega)
    rw [hnone]
    refine nearest_none (div_le_div_of_nonneg_right ?_ unitsPerOne_cast_pos.le)
    rw [le_div_iff₀ (Nat.cast_pos.mpr hd)]
    exact_mod_cast overflowUnits_mul_le hd hshift

theorem nearest_ofRatio {n d : ℕ} (hd : 0 < d) : grid.Nearest ((n : ℚ) / d) (ofRatio n d) := by
  have hunits := nearest_ofUnits (n := n * unitsPerOne) hd
  have hone : (unitsPerOne : ℚ) ≠ 0 := unitsPerOne_cast_pos.ne'
  have hcancel : ((n * unitsPerOne : ℕ) : ℚ) / d / unitsPerOne = n / d := by
    push_cast
    field_simp
  rwa [hcancel] at hunits

/-! ## Error bounds -/

theorem unitsPerOne_eq {k : ℕ} (hk : k ≤ 1074) : unitsPerOne = 2 ^ (1074 - k) * 2 ^ k := by
  rw [unitsPerOne, Nat.one_shiftLeft, ← Nat.pow_add, Nat.sub_add_cancel hk]

theorem grid_point_none : grid.point none = 2 ^ 1024 := by
  rw [grid_point, div_eq_iff unitsPerOne_cast_pos.ne']
  have hunits : overflowUnits = 2 ^ 1024 * unitsPerOne := by decide +kernel
  rw [gridUnits, hunits, Nat.cast_mul, Nat.cast_pow, Nat.cast_ofNat]

theorem point_none_gt : (2 : ℚ) ^ 54 < grid.point none := by
  rw [grid_point_none]
  exact pow_lt_pow_right₀ (by norm_num) (by norm_num)

/-- So many halves, quarters and so on of one are a magnitude, as long as 53 digits are enough. -/
theorem exists_value {n k : ℕ} (hn : n ≤ 2 ^ 53) (hk : k ≤ 1074) :
    ∃ m : Magnitude, m.value = n / 2 ^ k := by
  obtain ⟨m, hm⟩ := exists_units_eq hn (by omega : 1074 - k ≤ 2044)
  refine ⟨m, ?_⟩
  rw [value, hm, unitsPerOne_eq hk]
  push_cast
  field_simp

/-- A whole number of 53 digits is rounded to itself. -/
theorem exists_nearest_nat {n : ℕ} (hn : n ≤ 2 ^ 53) :
    ∃ m, grid.Nearest n (some m) ∧ m.value = n := by
  obtain ⟨m, hm⟩ := exists_value hn (Nat.zero_le 1074)
  rw [pow_zero, div_one] at hm
  refine ⟨m, ?_, hm⟩
  rw [← hm]
  exact grid.nearest_point (some m)

theorem exists_whole {y : ℚ} (h : 0 ≤ y) {b : ℕ} (hb : y ≤ b) :
    ∃ n : ℕ, n ≤ b ∧ |y - n| ≤ 1 / 2 := by
  have hlow := Nat.floor_le h
  have hhigh := Nat.lt_floor_add_one y
  by_cases hhalf : y - ⌊y⌋₊ ≤ 1 / 2
  · refine ⟨⌊y⌋₊, Nat.floor_le_of_le hb, ?_⟩
    rw [abs_of_nonneg (by linarith)]
    exact hhalf
  · refine ⟨⌊y⌋₊ + 1, ?_, ?_⟩
    · have hlt : (⌊y⌋₊ : ℚ) < b := by linarith
      exact Nat.cast_lt.mp hlt
    · push_cast
      rw [abs_le]
      constructor
      · linarith
      · linarith

/-- Where 53 digits reach down to `2 ^ -k`, rounding is off by at most half of that. -/
theorem exists_nearest {x : ℚ} {k : ℕ} (hk : k ≤ 1074) (h : 0 ≤ x) (hx : x * 2 ^ k ≤ 2 ^ 53) :
    ∃ m, grid.Nearest x (some m) ∧ |x - m.value| * 2 ^ k ≤ 1 / 2 := by
  have hpow : (0 : ℚ) < 2 ^ k := by positivity
  obtain ⟨n, hn, hnear⟩ := exists_whole (b := 2 ^ 53) (mul_nonneg h hpow.le)
    (by exact_mod_cast hx)
  obtain ⟨m, hm⟩ := exists_value hn hk
  have hhalf : |x - m.value| * 2 ^ k ≤ 1 / 2 := by
    calc |x - m.value| * 2 ^ k
        = |(x - m.value) * 2 ^ k| := by rw [abs_mul, abs_of_pos hpow]
      _ = |x * 2 ^ k - n| := by rw [sub_mul, hm, div_mul_cancel₀ _ hpow.ne']
      _ ≤ 1 / 2 := hnear
  have hratio : (x.num.toNat : ℚ) / x.den = x := by
    have hnum : ((x.num.toNat : ℤ) : ℚ) = x.num := by
      rw [Int.toNat_of_nonneg (Rat.num_nonneg.mpr h)]
    rw [← Int.cast_natCast, hnum, Rat.num_div_den]
  have hnearest := nearest_ofRatio (n := x.num.toNat) x.den_pos
  rw [hratio] at hnearest
  have hclosest := hnearest.closest (some m)
  cases hr : ofRatio x.num.toNat x.den with
  | some m' =>
    rw [hr] at hnearest hclosest
    exact ⟨m', hnearest, le_trans (mul_le_mul_of_nonneg_right hclosest hpow.le) hhalf⟩
  | none =>
    -- Overflow is much farther away than the magnitude at hand.
    have hone : (1 : ℚ) ≤ 2 ^ k := one_le_pow₀ (by norm_num)
    have hle : x ≤ 2 ^ 53 := le_trans (le_mul_of_one_le_right h hone) hx
    have hsmall : |x - m.value| ≤ 1 / 2 :=
      le_trans (le_mul_of_one_le_right (abs_nonneg _) hone) hhalf
    have hgt := point_none_gt
    rw [hr, abs_sub_comm, abs_of_nonneg (by linarith), grid_point_some] at hclosest
    linarith

theorem value_zero : zero.value = 0 := by
  rw [value, units_eq, zero, Nat.zero_mul, Nat.cast_zero, zero_div]

theorem one_le_gridUnits {r : Option Magnitude} (h : r ≠ some zero) : 1 ≤ gridUnits r := by
  refine Nat.pos_of_ne_zero fun hzero => h (gridUnits_injective ?_)
  rw [hzero, gridUnits, units_eq, zero, Nat.zero_mul]

/-- What is below half a unit is rounded to zero. -/
theorem nearest_zero {x : ℚ} (h : 0 ≤ x) (hx : 2 * x * unitsPerOne < 1) :
    grid.Nearest x (some zero) := by
  have hfar {r : Option Magnitude} (hne : r ≠ some zero) :
      |x - grid.point (some zero)| < |x - grid.point r| := by
    have hone : (1 : ℚ) / unitsPerOne ≤ grid.point r :=
      div_le_div_of_nonneg_right (by exact_mod_cast one_le_gridUnits hne) unitsPerOne_cast_pos.le
    have hhalf : 2 * x < 1 / unitsPerOne := by rwa [lt_div_iff₀ unitsPerOne_cast_pos]
    rw [grid_point_some, value_zero, sub_zero, abs_of_nonneg h, abs_sub_comm,
      abs_of_nonneg (by linarith)]
    linarith
  constructor
  · intro r
    by_cases hr : r = some zero
    · rw [hr]
    · exact (hfar hr).le
  · intro r hne htie
    exact absurd htie (hfar hne).ne'

end Magnitude

/-! ## Decimals -/

namespace Decimal

open Magnitude

def value (x : Decimal) : ℚ := x.digits * 10 ^ x.exponent

theorem value_nonneg (x : Decimal) : 0 ≤ x.value := by
  unfold value
  positivity

theorem powerOfTen_eq (k : ℕ) : (powerOfTen k : ℚ) = 10 ^ k := Nat.cast_pow 10 k

theorem lt_powerOfTen_digitBound (n : ℕ) : n < powerOfTen (digitBound n) := by
  have hlog : n < 2 ^ (n.log2 + 1) := Nat.lt_log2_self
  calc n < 2 ^ (n.log2 + 1) := hlog
    _ ≤ 2 ^ (3 * digitBound n) := Nat.pow_le_pow_right (by decide) (by unfold digitBound; omega)
    _ = 8 ^ digitBound n := Nat.pow_mul 2 3 _
    _ ≤ 10 ^ digitBound n := Nat.pow_le_pow_left (by decide) _

theorem value_lt (x : Decimal) : x.value < 10 ^ (x.exponent + digitBound x.digits) := by
  have hdigits : (x.digits : ℚ) < 10 ^ digitBound x.digits := by
    rw [← powerOfTen_eq]
    exact_mod_cast lt_powerOfTen_digitBound x.digits
  rw [zpow_add₀ (by norm_num), zpow_natCast, mul_comm, value]
  exact mul_lt_mul_of_pos_right hdigits (by positivity)

theorem value_eq_div (x : Decimal) : x.value =
    (x.digits * powerOfTen x.exponent.toNat : ℕ) / (powerOfTen (-x.exponent).toNat : ℕ) := by
  have hexponent : (x.exponent.toNat : ℤ) - (-x.exponent).toNat = x.exponent := by omega
  have hpow : (10 : ℚ) ^ x.exponent = 10 ^ x.exponent.toNat / 10 ^ (-x.exponent).toNat := by
    rw [← zpow_natCast, ← zpow_natCast, ← zpow_sub₀ (by norm_num), hexponent]
  rw [value, hpow, Nat.cast_mul, powerOfTen_eq, powerOfTen_eq, mul_div_assoc]

theorem nearest_toMagnitude (x : Decimal) : grid.Nearest x.value x.toMagnitude := by
  unfold toMagnitude
  split
  next hzero =>
    rw [value, hzero, Nat.cast_zero, zero_mul, ← value_zero]
    exact grid.nearest_point (some zero)
  next hdigits =>
    have hone : (1 : ℚ) ≤ x.digits := by exact_mod_cast Nat.pos_of_ne_zero hdigits
    split
    next hhuge =>
      refine nearest_none ?_
      have hover : overflowUnits ≤ 10 ^ 311 * unitsPerOne := by decide +kernel
      have hpow : (10 : ℚ) ^ 311 ≤ 10 ^ x.exponent := by
        rw [← zpow_natCast]
        exact zpow_le_zpow_right₀ (by norm_num) (by omega)
      rw [grid_point, div_le_iff₀ unitsPerOne_cast_pos]
      calc (overflowUnits : ℚ)
          ≤ 10 ^ 311 * unitsPerOne := by exact_mod_cast hover
        _ ≤ x.value * unitsPerOne := by
          refine mul_le_mul_of_nonneg_right ?_ unitsPerOne_cast_pos.le
          exact le_trans hpow (le_mul_of_one_le_left (by positivity) hone)
    next hhuge =>
      split
      next htiny =>
        refine nearest_zero x.value_nonneg ?_
        have hunits : 2 * unitsPerOne < 10 ^ 331 := by decide +kernel
        have hvalue : x.value < (10 ^ 331)⁻¹ := by
          refine lt_of_lt_of_le x.value_lt ?_
          rw [← zpow_natCast, ← zpow_neg]
          exact zpow_le_zpow_right₀ (by norm_num) (by omega)
        calc 2 * x.value * unitsPerOne
            = 2 * unitsPerOne * x.value := by ring
          _ ≤ 2 * unitsPerOne * (10 ^ 331)⁻¹ :=
            mul_le_mul_of_nonneg_left hvalue.le (mul_nonneg zero_le_two unitsPerOne_cast_pos.le)
          _ < 1 := by
            rw [← div_eq_mul_inv, div_lt_one (by positivity)]
            exact_mod_cast hunits
      next htiny =>
        rw [value_eq_div]
        exact nearest_ofRatio (Nat.pow_pos (by decide))

theorem toMagnitude_iff {x : Decimal} {r : Option Magnitude} :
    x.toMagnitude = r ↔ grid.Nearest x.value r := by
  constructor
  · rintro rfl
    exact x.nearest_toMagnitude
  · intro h
    exact x.nearest_toMagnitude.unique h

end Decimal

end EngineBench
