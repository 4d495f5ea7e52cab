import Mathlib.Tactic.Ring
import EngineBench.Decimal.Shortest

/-!
# The shortest decimal is read back

`Magnitude.covers` is a comparison of whole numbers, `Magnitude.ofUnits` an algorithm that rounds.
The first half of this module is that what a magnitude covers is rounded to it. The second half is
that the search through the grids ends with a decimal that is covered, so that
`Magnitude.toMagnitude_shortest` holds for every magnitude.
-/

namespace EngineBench

/-- The nearest whole number is the one that is at most half a step away, and even if it is just
half a step away. -/
theorem divNearest_eq {n d s : Nat} (hlow : 2 * (s * d) ≤ 2 * n + d)
    (hhigh : 2 * n ≤ 2 * (s * d) + d)
    (hodd : s % 2 = 1 → 2 * (s * d) < 2 * n + d ∧ 2 * n < 2 * (s * d) + d) (hd : 0 < d) :
    divNearest n d = s := by
  have hdiv := Nat.div_add_mod n d
  have hmod := Nat.mod_lt n hd
  rw [Nat.mul_comm] at hdiv
  have hle : n / d ≤ s := by
    refine Nat.le_of_not_lt fun hlt => ?_
    have hmul := Nat.mul_le_mul_right d (Nat.succ_le_of_lt hlt)
    rw [Nat.succ_mul] at hmul
    omega
  have hge : s ≤ n / d + 1 := by
    refine Nat.le_of_not_lt fun hlt => ?_
    have hmul := Nat.mul_le_mul_right d (Nat.succ_le_of_lt hlt)
    rw [Nat.succ_mul, Nat.add_mul, Nat.one_mul] at hmul
    omega
  rcases Nat.eq_or_lt_of_le hle with rfl | hlt
  · simp only [divNearest]
    repeat' split
    all_goals omega
  · obtain rfl : s = n / d + 1 := by omega
    rw [Nat.add_mul, Nat.one_mul] at hlow hhigh hodd
    simp only [divNearest]
    repeat' split
    all_goals omega

namespace Magnitude

/-! ## Rounding -/

/-- A shift is found from the size of the number. -/
theorem shiftFor_eq {n d k : Nat} (hd : 0 < d) (hlow : k ≠ 0 → 2 ^ 52 * (d * 2 ^ k) ≤ n)
    (hhigh : n < 2 ^ 53 * (d * 2 ^ k)) : shiftFor n d = k := by
  have hlt : n / d < 2 ^ (53 + k) := by
    rw [Nat.div_lt_iff_lt_mul hd, Nat.pow_add, Nat.mul_assoc, Nat.mul_comm (2 ^ k)]
    exact hhigh
  by_cases hq : n / d = 0
  · have hk : k = 0 := by
      by_contra hk
      have hle : 1 * d ≤ n := by
        refine Nat.le_trans ?_ (hlow hk)
        rw [Nat.one_mul, Nat.mul_left_comm]
        exact Nat.le_mul_of_pos_right d (Nat.mul_pos (by decide) (Nat.two_pow_pos k))
      have hone := (Nat.le_div_iff_mul_le hd).mpr hle
      omega
    rw [shiftFor, hq, hk]
    rfl
  · have hlog := (Nat.log2_lt hq).mpr hlt
    rw [shiftFor]
    by_cases hk : k = 0
    · omega
    · have hle : 2 ^ (52 + k) ≤ n / d := by
        rw [Nat.le_div_iff_mul_le hd, Nat.pow_add, Nat.mul_assoc, Nat.mul_comm (2 ^ k)]
        exact hlow hk
      have hlog' := (Nat.le_log2 hq).mpr hle
      omega

theorem ofUnits_eq {n d : Nat} {m : Magnitude} (hshift : shiftFor n d = m.shift)
    (h : divNearest n (d <<< m.shift) = m.significand) : ofUnits n d = some m := by
  have hlt := m.significand_lt
  have hle := m.shift_le
  simp only [ofUnits, hshift, h]
  rw [dif_pos (.inr ⟨hle, hlt⟩), dif_pos hlt]

/-- Rounding may carry into the next power of two. -/
theorem ofUnits_eq_of_carry {n d : Nat} {m : Magnitude} (hshift : shiftFor n d + 1 = m.shift)
    (hsignificand : m.significand = 1 <<< 52)
    (h : divNearest n (d <<< shiftFor n d) = 1 <<< 53) : ofUnits n d = some m := by
  have hle := m.shift_le
  simp only [ofUnits, h]
  rw [dif_pos (.inl (by omega)), dif_neg (Nat.lt_irrefl _)]
  simp only [hshift, ← hsignificand]

/-- A covered number is at most half a step away, and nearer to an odd significand. -/
theorem halfStep_of_covers {m : Magnitude} {n d : Nat} (h : m.covers (4 * n) d = true) :
    let t := d * 2 ^ m.shift
    2 * (m.significand * t) ≤ 2 * n + t ∧ 2 * n ≤ 2 * (m.significand * t) + t ∧
      (m.significand % 2 = 1 →
        2 * (m.significand * t) < 2 * n + t ∧ 2 * n < 2 * (m.significand * t) + t) := by
  intro t
  have hupper : m.upper * d = 4 * (m.significand * t) + 2 * t := by
    rw [upper, Nat.shiftLeft_eq]
    ring
  have hlower : 4 * (m.significand * t) ≤ m.lower * d + 2 * t := by
    have hcut (k : Nat) : 4 * (m.significand * t) ≤
        (4 * m.significand - k) * 2 ^ m.shift * d + k * t := by
      have hmul : (4 * m.significand - k) * 2 ^ m.shift * d = (4 * m.significand - k) * t := by
        ring
      rw [hmul, ← Nat.add_mul, ← Nat.mul_assoc]
      exact Nat.mul_le_mul_right t (by omega)
    unfold lower
    split
    · have hone := hcut 1
      rw [Nat.shiftLeft_eq]
      omega
    · rw [Nat.shiftLeft_eq]
      exact hcut 2
  unfold covers at h
  split at h
  · simp only [Bool.and_eq_true, decide_eq_true_eq] at h
    exact ⟨by omega, by omega, fun hodd => by omega⟩
  · simp only [Bool.and_eq_true, decide_eq_true_eq] at h
    exact ⟨by omega, by omega, fun _ => ⟨by omega, by omega⟩⟩

/-- Below a power of two only a quarter of a step is covered. -/
theorem quarterStep_of_covers {m : Magnitude} {n d : Nat} (h : m.covers (4 * n) d = true)
    (hsignificand : m.significand = 1 <<< 52) (hshift : m.shift ≠ 0) :
    4 * (2 ^ 52 * (d * 2 ^ m.shift)) ≤ 4 * n + d * 2 ^ m.shift := by
  have hlower : m.lower * d + d * 2 ^ m.shift = 4 * (2 ^ 52 * (d * 2 ^ m.shift)) := by
    rw [lower, if_pos ⟨hsignificand, hshift⟩, hsignificand, Nat.shiftLeft_eq, Nat.one_shiftLeft]
    ring
  rw [covers, hsignificand, Nat.one_shiftLeft, if_pos (by decide)] at h
  simp only [Bool.and_eq_true, decide_eq_true_eq] at h
  omega

/-- What a magnitude covers is rounded to it. -/
theorem ofUnits_of_covers {m : Magnitude} {n d : Nat} (hd : 0 < d)
    (h : m.covers (4 * n) d = true) : ofUnits n d = some m := by
  obtain ⟨hlow, hhigh, hodd⟩ := halfStep_of_covers h
  have htwo : 0 < 2 ^ m.shift := Nat.two_pow_pos _
  have ht : 0 < d * 2 ^ m.shift := Nat.mul_pos hd htwo
  have hlt : n < 2 ^ 53 * (d * 2 ^ m.shift) := by
    have hmax := m.significand_lt
    rw [Nat.one_shiftLeft] at hmax
    have hmul := Nat.mul_le_mul_right (d * 2 ^ m.shift) (Nat.le_sub_one_of_lt hmax)
    omega
  have hnearest : divNearest n (d <<< m.shift) = m.significand := by
    rw [Nat.shiftLeft_eq]
    exact divNearest_eq hlow hhigh hodd ht
  -- A number just below a power of two has the smaller shift, and carries.
  by_cases hge : m.shift ≠ 0 → 2 ^ 52 * (d * 2 ^ m.shift) ≤ n
  · exact ofUnits_eq (shiftFor_eq hd hge hlt) hnearest
  · obtain ⟨hshift, hbelow⟩ : m.shift ≠ 0 ∧ ¬ 2 ^ 52 * (d * 2 ^ m.shift) ≤ n := by
      simpa only [Classical.not_imp] using hge
    have hsignificand : m.significand = 1 <<< 52 := by
      have hnormal := m.normal.resolve_left hshift
      refine Nat.le_antisymm (Nat.le_of_not_lt fun hlt' => ?_) hnormal
      rw [Nat.one_shiftLeft] at hlt'
      have hmul := Nat.mul_le_mul_right (d * 2 ^ m.shift) (Nat.succ_le_of_lt hlt')
      rw [Nat.succ_mul] at hmul
      omega
    have hquarter := quarterStep_of_covers h hsignificand hshift
    obtain ⟨k, hk⟩ := Nat.exists_eq_succ_of_ne_zero hshift
    have hdouble : d * 2 ^ m.shift = 2 * (d * 2 ^ k) := by
      rw [hk, Nat.pow_succ]
      ring
    have hcarry : shiftFor n d = k := shiftFor_eq hd (fun _ => by omega) (by omega)
    refine ofUnits_eq_of_carry (by rw [hcarry, hk]) hsignificand ?_
    rw [hcarry, Nat.shiftLeft_eq, Nat.one_shiftLeft]
    exact divNearest_eq (by omega) (by omega) (fun hodd => absurd hodd (by decide))
      (Nat.mul_pos hd (Nat.two_pow_pos k))

/-! ## The search -/

theorem covers_of_onGrid? {tie : Tie} {m : Magnitude} {e : Int} {k : Nat}
    (h : m.onGrid? tie e = some k) :
    m.covers (k * (4 * unitsPerOne * Decimal.powerOfTen e.toNat))
      (Decimal.powerOfTen (-e).toNat) = true := by
  simp only [onGrid?] at h
  repeat' split at h
  all_goals cases h
  all_goals assumption

/-- A search ends on one of its grids. -/
theorem onGrid?_of_searchGrids {tie : Tie} {m : Magnitude} {n : Nat} {e : Int} {x : Decimal}
    (h : m.searchGrids tie n e = some x) :
    m.onGrid? tie x.exponent = some x.digits ∧ e - n ≤ x.exponent ∧ x.exponent ≤ e := by
  induction n generalizing e with
  | zero =>
    obtain ⟨d, hd, rfl⟩ := Option.map_eq_some_iff.mp h
    exact ⟨hd, by simp, Int.le_refl e⟩
  | succ n ih =>
    rw [searchGrids] at h
    split at h
    next d hd =>
      cases h
      exact ⟨hd, by simp only; omega, Int.le_refl e⟩
    next =>
      obtain ⟨hx, hle, hge⟩ := ih h
      exact ⟨hx, by omega, by omega⟩

/-- On the next coarser grid there was nothing. -/
theorem onGrid?_add_one_of_searchGrids {tie : Tie} {m : Magnitude} {n : Nat} {e : Int} {x : Decimal}
    (h : m.searchGrids tie n e = some x) (hlt : x.exponent < e) :
    m.onGrid? tie (x.exponent + 1) = none := by
  induction n generalizing e with
  | zero =>
    obtain ⟨d, hd, rfl⟩ := Option.map_eq_some_iff.mp h
    exact absurd hlt (Int.lt_irrefl e)
  | succ n ih =>
    rw [searchGrids] at h
    split at h
    next d hd =>
      cases h
      exact absurd hlt (Int.lt_irrefl e)
    next hnone =>
      obtain ⟨-, -, hle⟩ := onGrid?_of_searchGrids h
      by_cases hnext : x.exponent < e - 1
      · exact ih h hnext
      · have he : x.exponent + 1 = e := by omega
        rwa [he]

/-- A search is successful if its last grid has a point. -/
theorem searchGrids_isSome {tie : Tie} {m : Magnitude} {n : Nat} {e : Int}
    (h : (m.onGrid? tie (e - n)).isSome) : (m.searchGrids tie n e).isSome := by
  induction n generalizing e with
  | zero =>
    rw [searchGrids, Option.isSome_map]
    simpa using h
  | succ n ih =>
    rw [searchGrids]
    split
    · rfl
    · refine ih ?_
      have he : e - 1 - n = e - (n + 1 : Nat) := by omega
      rwa [he]

/-- The midpoint below is at least two quarter units away. -/
theorem lower_add_two_le {m : Magnitude} (hm : m.significand ≠ 0) : m.lower + 2 ≤ m.quarters := by
  unfold lower quarters
  have htwo : 0 < 2 ^ m.shift := Nat.two_pow_pos _
  split
  next hnormal =>
    obtain ⟨k, hk⟩ := Nat.exists_eq_succ_of_ne_zero hnormal.2
    have hpow : 0 < 2 ^ k := Nat.two_pow_pos _
    have hmul : (4 * m.significand - 1) * 2 ^ m.shift + 2 ^ m.shift =
        4 * m.significand * 2 ^ m.shift := by
      rw [← Nat.succ_mul]
      congr 1
      omega
    have hdouble : 2 ^ m.shift = 2 * 2 ^ k := by rw [hk, Nat.pow_succ, Nat.mul_comm]
    rw [Nat.shiftLeft_eq, Nat.shiftLeft_eq]
    omega
  next =>
    have hmul : (4 * m.significand - 2) * 2 ^ m.shift + 2 * 2 ^ m.shift =
        4 * m.significand * 2 ^ m.shift := by
      rw [← Nat.add_mul]
      congr 1
      omega
    rw [Nat.shiftLeft_eq, Nat.shiftLeft_eq]
    omega

/-- The midpoint below is at least a quarter of a step away. -/
theorem lower_add_step_le {m : Magnitude} (hm : m.significand ≠ 0) :
    m.lower + 2 ^ m.shift ≤ m.quarters := by
  have hcut (k : Nat) (hk : 1 ≤ k) :
      (4 * m.significand - k) * 2 ^ m.shift + 2 ^ m.shift ≤ 4 * m.significand * 2 ^ m.shift := by
    rw [← Nat.succ_mul]
    exact Nat.mul_le_mul_right _ (by omega)
  unfold lower quarters
  split
  · rw [Nat.shiftLeft_eq, Nat.shiftLeft_eq]
    exact hcut 1 (Nat.le_refl 1)
  · rw [Nat.shiftLeft_eq, Nat.shiftLeft_eq]
    exact hcut 2 (by decide)

theorem quarters_lt_upper (m : Magnitude) : m.quarters < m.upper := by
  rw [quarters, upper, Nat.shiftLeft_eq, Nat.shiftLeft_eq]
  exact Nat.mul_lt_mul_of_pos_right (by omega) (Nat.two_pow_pos _)

theorem covers_of_between {m : Magnitude} {p q : Nat} (hlow : m.lower * q < p)
    (hhigh : p < m.upper * q) : m.covers p q = true := by
  unfold covers
  split <;> simp only [Bool.and_eq_true, decide_eq_true_eq] <;> omega

/-- A grid whose step is not longer than the way down to the midpoint has a point. -/
theorem onGrid?_isSome (tie : Tie) {m : Magnitude} {e : Int} {gap : Nat}
    (hgap : m.lower + gap ≤ m.quarters)
    (hstep : 4 * unitsPerOne * Decimal.powerOfTen e.toNat ≤
      gap * Decimal.powerOfTen (-e).toNat) : (m.onGrid? tie e).isSome := by
  have hup : 0 < Decimal.powerOfTen (-e).toNat := Nat.pow_pos (by decide)
  have hpos : 0 < 4 * unitsPerOne * Decimal.powerOfTen e.toNat :=
    Nat.mul_pos (Nat.mul_pos (by decide) unitsPerOne_pos) (Nat.pow_pos (by decide))
  have hcovers : m.covers
      (m.quarters * Decimal.powerOfTen (-e).toNat /
        (4 * unitsPerOne * Decimal.powerOfTen e.toNat) *
        (4 * unitsPerOne * Decimal.powerOfTen e.toNat))
      (Decimal.powerOfTen (-e).toNat) = true := by
    generalize 4 * unitsPerOne * Decimal.powerOfTen e.toNat = step at hstep hpos
    generalize Decimal.powerOfTen (-e).toNat = up at hstep hup
    have hdiv := Nat.div_add_mod (m.quarters * up) step
    have hmod := Nat.mod_lt (m.quarters * up) hpos
    have hlower := Nat.mul_le_mul_right up hgap
    have hupper := Nat.mul_lt_mul_of_pos_right m.quarters_lt_upper hup
    rw [Nat.add_mul] at hlower
    rw [Nat.mul_comm] at hdiv
    exact covers_of_between (by omega) (by omega)
  simp only [onGrid?, hcovers]
  split
  next => (repeat' split) <;> rfl
  next => rfl
  next h _ => cases h
  next h _ => cases h

/-- The finest grid: its step is smaller than the distance of a midpoint. -/
theorem onGrid?_finest (tie : Tie) {m : Magnitude} (hm : m.significand ≠ 0) :
    (m.onGrid? tie (-324)).isSome :=
  onGrid?_isSome tie (lower_add_two_le hm) (by decide +kernel)

/-- The search for the shortest decimal of a magnitude above zero is successful. -/
theorem searchGrids_shortest (tie : Tie) {m : Magnitude} (hm : m.significand ≠ 0) :
    m.searchGrids tie 632 308 = some (m.shortest tie) := by
  obtain ⟨x, hx⟩ := Option.isSome_iff_exists.mp
    (searchGrids_isSome (n := 632) (e := 308) (onGrid?_finest tie hm))
  rw [shortest, if_neg hm, hx, Option.getD_some]

/-- What the shortest decimal of a magnitude above zero is. -/
theorem onGrid?_shortest (tie : Tie) {m : Magnitude} (hm : m.significand ≠ 0) :
    m.onGrid? tie (m.shortest tie).exponent = some (m.shortest tie).digits ∧
      -324 ≤ (m.shortest tie).exponent ∧ (m.shortest tie).exponent ≤ 308 :=
  onGrid?_of_searchGrids (searchGrids_shortest tie hm)

theorem shortest_zero (tie : Tie) {m : Magnitude} (hm : m.significand = 0) :
    m.shortest tie = ⟨0, 0⟩ := if_pos hm

theorem eq_zero_of_significand {m : Magnitude} (hm : m.significand = 0) : m = zero := by
  have hshift : m.shift = 0 := m.normal.resolve_right (by rw [hm]; decide)
  cases m
  cases hm
  cases hshift
  rfl

theorem covers_shortest (tie : Tie) {m : Magnitude} (hm : m.significand ≠ 0) :
    m.covers
      (4 * ((m.shortest tie).digits * Decimal.powerOfTen (m.shortest tie).exponent.toNat *
        unitsPerOne))
      (Decimal.powerOfTen (-(m.shortest tie).exponent).toNat) = true := by
  have hcovers := covers_of_onGrid? (onGrid?_shortest tie hm).1
  have hmul (a b u : Nat) : 4 * (a * b * u) = a * (4 * u * b) := by ring
  rwa [hmul]

theorem powerOfTen_pos (k : Nat) : 0 < Decimal.powerOfTen k := Nat.pow_pos (by decide)

/-- The shortest decimal of a magnitude above zero is above zero. -/
theorem shortest_digits_ne_zero (tie : Tie) {m : Magnitude} (hm : m.significand ≠ 0) :
    (m.shortest tie).digits ≠ 0 := by
  intro h
  have hround := ofUnits_of_covers (powerOfTen_pos _) (covers_shortest tie hm)
  rw [h, Nat.zero_mul, Nat.zero_mul] at hround
  have hzero : ofUnits 0 (Decimal.powerOfTen (-(m.shortest tie).exponent).toNat) = some zero :=
    ofUnits_of_covers (powerOfTen_pos _) (by simp [covers, zero, lower, upper])
  rw [hzero] at hround
  exact hm (congrArg significand (Option.some.inj hround)).symm

/-- A quarter of the step of a magnitude is shorter than the step of the next coarser grid. -/
theorem step_lt_of_onGrid?_eq_none {tie : Tie} {m : Magnitude} {e : Int} (hm : m.significand ≠ 0)
    (h : m.onGrid? tie (e + 1) = none) :
    2 ^ m.shift * Decimal.powerOfTen (-e).toNat <
      10 * (4 * unitsPerOne * Decimal.powerOfTen e.toNat) := by
  have hcoarse : 2 ^ m.shift * Decimal.powerOfTen (-(e + 1)).toNat <
      4 * unitsPerOne * Decimal.powerOfTen (e + 1).toNat := by
    refine Nat.lt_of_not_le fun hle => ?_
    have hsome := onGrid?_isSome tie (lower_add_step_le hm) hle
    rw [h] at hsome
    cases hsome
  have hten (k : Nat) : Decimal.powerOfTen (k + 1) = 10 * Decimal.powerOfTen k := Nat.pow_succ'
  by_cases he : 0 ≤ e
  · have hup : (-(e + 1)).toNat = (-e).toNat := by omega
    have hdown : (e + 1).toNat = e.toNat + 1 := by omega
    rw [hup, hdown, hten] at hcoarse
    rwa [Nat.mul_left_comm]
  · have hup : (-e).toNat = (-(e + 1)).toNat + 1 := by omega
    have hdown : (e + 1).toNat = e.toNat := by omega
    rw [hdown] at hcoarse
    rw [hup, hten, Nat.mul_left_comm]
    exact Nat.mul_lt_mul_of_pos_left hcoarse (by decide)

/-- The step of the largest magnitudes, in units. -/
def topStep : Nat := 1 <<< 2045

theorem two_pow_le_topStep {k : Nat} (hk : k ≤ 2045) : 2 ^ k ≤ topStep := by
  rw [topStep]
  generalize 2045 = top at hk ⊢
  rw [Nat.one_shiftLeft]
  exact Nat.pow_le_pow_right (by decide) hk

theorem topStep_pos : 0 < topStep :=
  Nat.lt_of_lt_of_le Nat.one_pos (two_pow_le_topStep (Nat.zero_le _))

/-- A magnitude has 53 binary digits, so its shortest decimal has digits of less than 59 bits. -/
theorem shortest_digits_lt (tie : Tie) (m : Magnitude) :
    (m.shortest tie).digits < 10 * 2 ^ 55 := by
  by_cases hm : m.significand = 0
  · rw [shortest_zero tie hm]
    decide
  have hsearch := searchGrids_shortest tie hm
  obtain ⟨-, -, hle⟩ := onGrid?_of_searchGrids hsearch
  obtain ⟨-, hhalf, -⟩ := halfStep_of_covers (covers_shortest tie hm)
  generalize m.shortest tie = x at hsearch hle hhalf ⊢
  have hstep : 2 ^ m.shift * Decimal.powerOfTen (-x.exponent).toNat <
      10 * (4 * unitsPerOne * Decimal.powerOfTen x.exponent.toNat) := by
    rcases Int.lt_or_eq_of_le hle with hlt | heq
    · exact step_lt_of_onGrid?_eq_none hm (onGrid?_add_one_of_searchGrids hsearch hlt)
    · -- The coarsest grid has a step that no magnitude reaches.
      rw [heq]
      refine Nat.lt_of_le_of_lt (Nat.mul_le_mul_right _ (two_pow_le_topStep m.shift_le)) ?_
      decide +kernel
  have hmax := m.significand_lt
  rw [Nat.one_shiftLeft] at hmax
  rw [Nat.mul_comm (2 ^ m.shift)] at hstep
  rw [Nat.mul_assoc] at hhalf hstep
  generalize Decimal.powerOfTen (-x.exponent).toNat * 2 ^ m.shift = t at hstep hhalf
  refine Nat.lt_of_not_le fun hdigits => ?_
  have hlow := Nat.mul_le_mul_right
    (Decimal.powerOfTen x.exponent.toNat * unitsPerOne) hdigits
  have hhigh := Nat.mul_le_mul_right t (Nat.le_sub_one_of_lt hmax)
  rw [Nat.mul_comm unitsPerOne] at hstep
  omega

/-- A decimal of a moderate size is read as the magnitude that covers it. -/
theorem toMagnitude_of_covers {m : Magnitude} {x : Decimal} (hx : x.digits ≠ 0)
    (hlow : -324 ≤ x.exponent) (hhigh : x.exponent ≤ 308)
    (h : m.covers (4 * (x.digits * Decimal.powerOfTen x.exponent.toNat * unitsPerOne))
      (Decimal.powerOfTen (-x.exponent).toNat) = true) : x.toMagnitude = some m := by
  have hbound : ¬ x.exponent + Decimal.digitBound x.digits < -330 := by
    simp only [Decimal.digitBound]
    omega
  rw [Decimal.toMagnitude, if_neg hx, if_neg (by omega), if_neg hbound]
  exact ofUnits_of_covers (powerOfTen_pos _) h

/-- The shortest decimal is read back. -/
theorem toMagnitude_shortest (tie : Tie) (m : Magnitude) :
    (m.shortest tie).toMagnitude = some m := by
  by_cases hm : m.significand = 0
  · rw [shortest_zero tie hm, eq_zero_of_significand hm]
    rfl
  · obtain ⟨-, hlow, hhigh⟩ := onGrid?_shortest tie hm
    exact toMagnitude_of_covers (shortest_digits_ne_zero tie hm) hlow hhigh (covers_shortest tie hm)

end Magnitude

end EngineBench
